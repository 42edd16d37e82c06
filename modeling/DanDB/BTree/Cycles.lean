import DanDB.BTree.BTreeKinds
import DanDB.BTree.Walks
import DanDB.Storage.Residency

/-!
# A walk that does not end

An internal page may be its own first child: nothing in the page is wrong.  A walk
that comes to it goes round for ever.
-/

namespace DanDB.BTree

open DanDB.Core Storage PageProgram BTreePage

/-- An empty internal root page whose first child is page 1. -/
def ownChildPage : PageData := setRoot (setFirstChildPageId (emptyPage .internal 1 1) 1) true

theorem shows_ownChildPage (key : smallLayout.Key) :
    (Node.internal true invalidPageId [(key, 1)] : Node smallLayout .internal).Shows ownChildPage :=
  ((Node.shows_emptyPage (smallLayout_admits .internal)).setFirstChild 1).setRoot true

/-- A session without handles that has written the page to page 1. -/
structure Circular (t : Session) : Prop where
  sound : t.Sound
  handles : t.abs.handles = []
  page : t.abs.flat.active.page 1 = some ownChildPage
  dirty : 1 ∈ t.abs.flat.dirtyPageIds

variable {t : Session}

/-- A look at the page leaves the session as it was. -/
theorem Circular.run_withPage {α : Type} (h : Circular t) {body : PageData → PageProgram α}
    {r : Except Status α} (hbody : body ownChildPage = .done r) :
    ∃ trace t', (withPage 1 body).run Session.responder t = some (trace, r, t') ∧ Circular t' := by
  have hhandles : t.handles = [] := by
    have hlength := congrArg List.length h.handles
    rw [Session.length_abs_handles] at hlength
    exact List.eq_nil_of_length_eq_zero hlength
  obtain ⟨f, hf⟩ := h.sound.resident_of_dirty hhandles (by decide) h.dirty
  obtain ⟨t₁, hget, hsound₁, habs₁⟩ := h.sound.getPage_resident (by decide) (by decide) hf h.page
    (by rw [Session.handlesOf, hhandles]; exact Nat.zero_lt_of_lt (by decide : 0 < Session.maxHandles))
  obtain ⟨t₂, hrelease, hsound₂, habs₂⟩ := hsound₁.release_first (congrArg FlatSession.handles habs₁)
  have habs : t₂.abs = ⟨t.abs.flat, t.abs.handles⟩ := by rw [habs₂, habs₁]
  refine ⟨_, t₂, PageProgram.run_withPage hget hbody hrelease, hsound₂, ?_, ?_, ?_⟩
  · rw [habs]
    exact h.handles
  · rw [habs]
    exact h.page
  · rw [habs]
    exact h.dirty

/-- What a walk does with an internal page. -/
theorem childTowards_body {data : PageData} {key : List Byte} {childPageId : PageId}
    (hopen : openPage data = .ok data) (hkind : kind data = .internal)
    (hinternal : BTreeInternalPage.openPage data = .ok data)
    (hchild : BTreeInternalPage.childPageIdForKey data key = .ok childPageId) : (do
    let page ← .done (openPage data)
    match kind page with
    | .leaf => return none
    | .internal =>
      let page ← .done (BTreeInternalPage.openPage page)
      let childPageId ← .done (BTreeInternalPage.childPageIdForKey page key)
      return some childPageId : PageProgram (Option PageId)) = .done (.ok (some childPageId)) := by
  rw [hopen, Program.done_ok_bind, hkind]
  show ((Program.done (BTreeInternalPage.openPage data) : PageProgram PageData) >>= _) = _
  rw [hinternal, Program.done_ok_bind, hchild]
  rfl

theorem Circular.run_childTowards (h : Circular t) (key : smallLayout.Key) : ∃ trace t',
    (childTowards key.bytes 1).run Session.responder t = some (trace, .ok (some 1), t') ∧
      Circular t' := by
  have hshows := shows_ownChildPage key
  have hchild := @Node.Shows.childPageIdForKey_branches _ _ _ _ [] [] _ hshows key nofun nofun
  exact h.run_withPage
    (childTowards_body hshows.openPage_ok hshows.kind_eq hshows.openAs_ok hchild)

theorem Circular.run_findLeafFrom (h : Circular t) (key : smallLayout.Key) (fuel : Nat) :
    (findLeafFrom key.bytes fuel 1).run Session.responder t = none := by
  induction fuel generalizing t with
  | zero => rfl
  | succ fuel ih =>
    obtain ⟨trace, t', hrun, hcircular⟩ := h.run_childTowards key
    rw [findLeafFrom, Program.run_bind_ok hrun]
    show ((findLeafFrom key.bytes fuel 1).run Session.responder t').map _ = none
    rw [ih hcircular]
    rfl

theorem Circular.run_find (h : Circular t) (key : smallLayout.Key) :
    (find ⟨1, 1, 1⟩ key.bytes).run Session.responder t = none := by
  have hsize : ¬key.bytes.length ≠ 1 := not_not_intro key.size_eq
  rw [find, Program.failIf, if_neg hsize, Program.pure_bind, findLeafPageId]
  exact Program.run_bind_none (h.run_findLeafFrom key walkLimit)

/-- Every page is accepted, and still `find` does not end. -/
theorem exists_endless : ∃ t : Session, Session.Reachable t ∧
    (∀ pageId data, t.abs.flat.active.page pageId = some data → validatePage data = .ok ()) ∧
      (find ⟨1, 1, 1⟩ [0]).run Session.responder t = none := by
  have hvalid := (shows_ownChildPage ⟨[0], rfl⟩).validatePage_ok
  obtain ⟨pager, t, hcreate, ht⟩ := Session.exists_played 7 (by decide) (by decide)
    (show FlatSession.play 7 _ [.beginTransaction, .newPage, .store 0 ownChildPage, .release 0] =
      some (_, _) from rfl)
  have hpage (pageId : PageId) : t.abs.flat.active.page pageId =
      if pageId = 1 then some ownChildPage else none := by
    rw [ht.abs]
    exact congrFun (Function.update_idem ..) pageId |>.trans (Function.update_apply ..)
  refine ⟨t, (Session.Reachable.create hcreate).runs ht.runs, fun pageId data hdata => ?_,
    Circular.run_find ⟨ht.sound, ?_, (hpage 1).trans (if_pos rfl), ?_⟩ ⟨[0], rfl⟩⟩
  · rw [hpage] at hdata
    by_cases hone : pageId = 1
    · rw [if_pos hone] at hdata
      exact Option.some.inj hdata ▸ hvalid
    · rw [if_neg hone] at hdata
      cases hdata
  · rw [ht.abs]
    rfl
  · rw [ht.abs]
    show (1 : PageId) ∈ (([] : List PageId).insert headerPageId).insert 1
    exact List.mem_insert_self

end DanDB.BTree
