import DanDB.BTree.TreeStore

/-!
# Trees side by side

The trees of a database have no page in common, so what changes one of them leaves the
others as they are.
-/

namespace DanDB.BTree

open DanDB.Core Storage Subtree

variable {array array' : PageArray} {tree tree' : BTree} {map : ByteMap} {own ids : List PageId}
  {layout : Layout} {height : Nat} {t : Subtree layout height}
  {entries : List (layout.Entry .leaf)}

/-- The pages are a tree that stands for the map. -/
def Stands (array : PageArray) (tree : BTree) (map : ByteMap) (ids : List PageId) : Prop :=
  ∃ (layout : Layout) (height : Nat) (t : Subtree layout height), WellFormed array tree t ∧
    layout.Admits .internal ∧ contents t.entries = map ∧ t.pageIds = ids

namespace Stands

theorem lt (h : Stands array tree map ids) : ∀ id ∈ ids, id < array.header.pageCount := by
  obtain ⟨layout, height, t, hwell, -, -, rfl⟩ := h
  exact fun id hid => (hwell.stored.lt hid).1

theorem root_mem (h : Stands array tree map ids) : tree.rootPageId ∈ ids := by
  obtain ⟨layout, height, t, hwell, -, -, rfl⟩ := h
  rw [hwell.rootPageId]
  exact t.pageId_mem

/-- A tree stays as long as others change. -/
theorem only (h : Stands array tree map ids) (hchange : OnlyChanges own array array')
    (hdisjoint : ids.Disjoint own) : Stands array' tree map ids := by
  obtain ⟨layout, height, t, hwell, hadmits, hcontents, rfl⟩ := h
  exact ⟨layout, height, t, ⟨hwell.rootPageId, hwell.hasLayout, hwell.stored.only hchange hdisjoint,
    hwell.nodup, hwell.filled, hwell.sorted⟩, hadmits, hcontents, rfl⟩

end Stands

/-- The pages of the trees of a database. -/
structure Forest (array : PageArray) (d : Database) (pages : BTree → List PageId) : Prop where
  pos : 0 < array.header.pageCount
  stands : ∀ tree map, d tree = some map → Stands array tree map (pages tree)
  disjoint : ∀ tree tree', d tree ≠ none → d tree' ≠ none → tree ≠ tree' →
    (pages tree).Disjoint (pages tree')

/-- The pages hold the trees of a database. -/
def HoldsTrees (array : PageArray) (d : Database) : Prop := ∃ pages, Forest array d pages

namespace Forest

variable {d : Database} {pages : BTree → List PageId}

theorem empty (hpos : 0 < array.header.pageCount) : Forest array .empty fun _ => [] :=
  ⟨hpos, nofun, fun _ _ h => absurd rfl h⟩

/-- A tree changes or comes in; its pages are its own or new ones. -/
theorem update (h : Forest array d pages) (hchange : OnlyChanges own array array')
    (hown : ∀ other, other ≠ tree → d other ≠ none → (pages other).Disjoint own)
    (hstands : Stands array' tree map ids)
    (hids : ∀ id ∈ ids, id < array.header.pageCount → id ∈ own) :
    Forest array' (Function.update d tree (some map)) (Function.update pages tree ids) := by
  have hothers {other : BTree} (hne : other ≠ tree)
      (hother : Function.update d tree (some map) other ≠ none) :
      d other ≠ none ∧ (Function.update pages tree ids other) = pages other := by
    rw [Function.update_of_ne hne] at hother
    exact ⟨hother, Function.update_of_ne hne ..⟩
  have hapart {other : BTree} (hne : other ≠ tree) (hother : d other ≠ none) :
      (pages other).Disjoint ids := by
    obtain ⟨map', hmap⟩ := Option.ne_none_iff_exists'.mp hother
    exact fun id hid hid' => hown other hne hother hid (hids id hid' ((h.stands other map' hmap).lt id hid))
  refine ⟨UInt64.lt_of_lt_of_le h.pos hchange.count, ?_, ?_⟩
  · intro other map' hmap
    by_cases hne : other = tree
    · subst hne
      rw [Function.update_self] at hmap ⊢
      cases hmap
      exact hstands
    · obtain ⟨hother, hpages⟩ := hothers hne (hmap ▸ nofun)
      rw [Function.update_of_ne hne] at hmap
      rw [hpages]
      exact (h.stands other map' hmap).only hchange (hown other hne hother)
  · intro left right hleft hright hne
    by_cases hl : left = tree
    · subst hl
      obtain ⟨hother, hpages⟩ := hothers hne.symm hright
      rw [Function.update_self, hpages]
      exact (hapart hne.symm hother).symm
    · obtain ⟨hother, hpages⟩ := hothers hl hleft
      rw [hpages]
      by_cases hr : right = tree
      · subst hr
        rw [Function.update_self]
        exact hapart hl hother
      · obtain ⟨hother', hpages'⟩ := hothers hr hright
        rw [hpages']
        exact h.disjoint left right hother hother' hne

/-- An operation on one of the trees. -/
theorem becomes (h : Forest array d pages) (hmap : d tree = some map)
    (hids : t.pageIds = pages tree) (hadmits : layout.Admits .internal)
    (hbecomes : Becomes array tree t entries array') :
    ∃ pages', Forest array' (Function.update d tree (some (contents entries))) pages' := by
  obtain ⟨height', t', hwell, rfl, hchange, hfresh⟩ := hbecomes
  refine ⟨_, h.update hchange (fun other hne hother => ?_)
    ⟨layout, height', t', hwell, hadmits, rfl, rfl⟩ hfresh⟩
  rw [hids]
  exact h.disjoint other tree hother (hmap ▸ nofun) hne

/-- A new tree. -/
theorem created (h : Forest array d pages) (hadmits : layout.Admits .internal)
    (hcreated : Created array layout tree array') :
    (∀ other, d other ≠ none → other.rootPageId ≠ tree.rootPageId) ∧
      ∃ pages', Forest array' (Function.update d tree (some fun _ => none)) pages' := by
  obtain ⟨hroot, hchange, hwell⟩ := hcreated
  have hnew {other : BTree} (hother : d other ≠ none) : other.rootPageId ≠ tree.rootPageId := by
    obtain ⟨map', hmap⟩ := Option.ne_none_iff_exists'.mp hother
    have hstands := h.stands other map' hmap
    have hlt := hstands.lt _ hstands.root_mem
    rw [hroot]
    exact UInt64.ne_of_lt hlt
  have hstands : Stands array' tree (fun _ => none) [tree.rootPageId] :=
    ⟨layout, 0, _, hwell, hadmits, contents_nil, rfl⟩
  refine ⟨fun other => hnew, _, h.update hchange (fun _ _ _ => List.disjoint_nil_right _) hstands ?_⟩
  intro id hid hlt
  rw [List.mem_singleton.mp hid, hroot] at hlt
  exact absurd hlt (UInt64.lt_irrefl _)

end Forest

end DanDB.BTree
