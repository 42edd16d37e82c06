import DanDB.Storage.Pager

/-!
# A database as a flat array of pages

What a pager is for, without pool, log or file: an array of pages with a header
in front, the copy of it that was committed last, and the state of the
transaction.  A commit copies the active array over the committed one, a
rollback copies it back.  `pinned` lists the pages that handles point to.
-/

namespace DanDB.Storage

open DanDB.Core

/-- The header of a database and its pages. -/
structure PageArray where
  header : DatabaseHeader
  page : PageId → Option PageData

structure FlatPager where
  /-- The pages as the transaction sees them. -/
  active : PageArray
  /-- The pages as the last commit left them. -/
  committed : PageArray
  status : TransactionStatus
  dirtyPageIds : List PageId

namespace FlatPager

def getPage (pageId : PageId) : Proc Status FlatPager PageData := do
  let flat ← Proc.get
  Proc.failIf (pageId = invalidPageId ∨ pageId = headerPageId)
    (.InvalidArgument "Cannot get page: invalid page id")
  match flat.active.page pageId with
  | some data => return data
  | none => Proc.fail (DiskManager.outsideStatus "read" pageId)

def markDirty (pageId : PageId) : Proc Status FlatPager Unit := do
  let flat ← Proc.get
  Proc.failIf (pageId = invalidPageId)
    (.InvalidArgument "Cannot mark page dirty: invalid page id")
  Proc.failIf (flat.status = .failed)
    (.TransactionError "Cannot mark page dirty: transaction is failed")
  Proc.failIf (flat.status = .unresolved)
    (.TransactionError "Cannot mark page dirty: transaction is unresolved")
  Proc.failIf (flat.status = .inactive)
    (.TransactionError "Cannot mark page dirty: no transaction is active")
  Proc.modify fun flat => { flat with dirtyPageIds := flat.dirtyPageIds.insert pageId }

/-- Overwrite a page. -/
def store (pageId : PageId) (data : PageData) (flat : FlatPager) : FlatPager :=
  { flat with active :=
    { flat.active with page := Function.update flat.active.page pageId (some data) } }

def requireActive (verb : String) : Proc Status FlatPager Unit := do
  let flat ← Proc.get
  Proc.failIf (flat.status = .inactive)
    (.TransactionError s!"Cannot {verb}: no transaction is active")
  Proc.failIf (flat.status = .failed)
    (.TransactionError s!"Cannot {verb}: transaction is failed")
  Proc.failIf (flat.status = .unresolved)
    (.TransactionError s!"Cannot {verb}: transaction is unresolved")

/-- One more page, all zeros, at the end. -/
def newPage : Proc Status FlatPager PageId := do
  requireActive "allocate new page"
  let flat ← Proc.get
  let pageId := flat.active.header.pageCount
  Proc.failIf (pageId = invalidPageId)
    (.InvalidArgument "Cannot cache page: invalid page id")
  Proc.modify fun flat => { flat with
    active :=
      { header := { flat.active.header with pageCount := pageId + 1 }
        page := Function.update flat.active.page pageId (some .zero) }
    dirtyPageIds := (flat.dirtyPageIds.insert headerPageId).insert pageId }
  return pageId

/-- New roots of the system tables in the header. -/
def setSystemRoots (tables columns indexes indexColumns : PageId) :
    Proc Status FlatPager Unit := do
  markDirty headerPageId
  Proc.modify fun flat => { flat with active :=
    { flat.active with
      header := flat.active.header.withRoots tables columns indexes indexColumns } }

def beginTransaction : Proc Status FlatPager Unit := do
  let flat ← Proc.get
  Proc.failIf (flat.status ≠ .inactive)
    (.TransactionError "Cannot begin transaction: transaction is already active")
  Proc.modify fun flat => { flat with status := .active }

/-- The database without a transaction. -/
def settled (array : PageArray) : FlatPager := ⟨array, array, .inactive, []⟩

def commitTransaction (pinned : List PageId) : Proc Status FlatPager Unit := do
  requireActive "commit transaction"
  let flat ← Proc.get
  Proc.failIf (∃ pageId ∈ flat.dirtyPageIds, pageId ≠ headerPageId ∧ pageId ∈ pinned)
    (.TransactionError "Cannot commit transaction: dirty page is still pinned")
  Proc.modify fun flat => settled flat.active

/-- The changed pages that existed before the transaction. -/
def IsOriginal (flat : FlatPager) (pageId : PageId) : Prop :=
  pageId ∈ flat.dirtyPageIds ∧ pageId ≠ headerPageId ∧
    pageId.toNat < flat.committed.header.pageCount.toNat

instance (flat : FlatPager) (pageId : PageId) : Decidable (flat.IsOriginal pageId) :=
  inferInstanceAs (Decidable (_ ∧ _ ∧ _))

def rollbackTransaction (pinned : List PageId) : Proc Status FlatPager Unit := do
  let flat ← Proc.get
  Proc.failIf (flat.status = .inactive)
    (.TransactionError "Cannot rollback transaction: no transaction is active")
  Proc.failIf (flat.status = .unresolved)
    (.TransactionError "Cannot rollback transaction: transaction is unresolved")
  Proc.failIf (∃ pageId ∈ pinned, flat.IsOriginal pageId)
    (.InternalError "Cannot restore page: page is pinned")
  Proc.failIf (∃ pageId ∈ pinned, pageId ∈ flat.dirtyPageIds)
    (.InternalError "Cannot discard page: page is pinned")
  Proc.modify fun flat => settled flat.committed

def markTransactionFailed : Proc Status FlatPager Unit := do
  let flat ← Proc.get
  Proc.failIf (flat.status = .inactive)
    (.TransactionError "Cannot mark transaction failed: no transaction is active")
  Proc.failIf (flat.status = .unresolved)
    (.TransactionError "Cannot mark transaction failed: transaction is unresolved")
  Proc.modify fun flat => { flat with status := .failed }

/-- A checkpoint changes nothing that can be seen. -/
def checkpoint : Proc Status FlatPager Unit := do
  let flat ← Proc.get
  Proc.failIf (flat.status = .unresolved)
    (.TransactionError "Cannot checkpoint: transaction outcome is unresolved")

/-- A new page is all zeros. -/
theorem newPage_page {flat flat' : FlatPager} {pageId : PageId}
    (h : newPage.run flat = (.ok pageId, flat')) : flat'.active.page pageId = some .zero := by
  have hnew : newPage.Yields flat fun r flat' => ∀ pageId, r = .ok pageId →
      flat'.active.page pageId = some .zero := by
    have hany : (requireActive "allocate new page").Yields flat fun _ _ => True := trivial
    refine hany.bind (fun _ flat _ => ?_) fun e _ _ _ he => by cases he
    refine Proc.yields_get_bind (Proc.yields_failIf_bind (fun _ _ he => by cases he) fun _ => ?_)
    refine Proc.yields_modify_bind (Proc.yields_pure fun pageId he => ?_)
    cases he
    exact Function.update_self ..
  unfold Proc.Yields at hnew
  rw [h] at hnew
  exact hnew pageId rfl

/-- The id of a new page is the page count, which grows by one. -/
theorem newPage_pageCount {flat flat' : FlatPager} {pageId : PageId}
    (h : newPage.run flat = (.ok pageId, flat')) : pageId ≠ invalidPageId ∧
      flat'.active.header.pageCount = pageId + 1 := by
  have hnew : newPage.Yields flat fun r flat' => ∀ pageId, r = .ok pageId →
      pageId ≠ invalidPageId ∧ flat'.active.header.pageCount = pageId + 1 := by
    have hany : (requireActive "allocate new page").Yields flat fun _ _ => True := trivial
    refine hany.bind (fun _ flat _ => ?_) fun e _ _ _ he => by cases he
    refine Proc.yields_get_bind (Proc.yields_failIf_bind (fun _ _ he => by cases he) fun hne => ?_)
    refine Proc.yields_modify_bind (Proc.yields_pure fun pageId he => ?_)
    cases he
    exact ⟨hne, rfl⟩
  unfold Proc.Yields at hnew
  rw [h] at hnew
  exact hnew pageId rfl

/-! ## A transaction with an open outcome -/

/-- The procedure fails and does nothing while the outcome of a transaction is
open. -/
def Stuck {α : Type} (x : Proc Status FlatPager α) : Prop :=
  ∀ flat : FlatPager, flat.status = .unresolved → x.Yields flat fun r flat' =>
    (∃ e, r = .error e) ∧ flat' = flat

theorem stuck_markDirty (pageId : PageId) : Stuck (markDirty pageId) := fun _ h =>
  Proc.yields_get_bind (Proc.yields_failIf_bind (fun _ => ⟨⟨_, rfl⟩, rfl⟩) fun _ =>
    Proc.yields_failIf_bind (fun _ => ⟨⟨_, rfl⟩, rfl⟩) fun _ =>
      Proc.yields_failIf_bind (fun _ => ⟨⟨_, rfl⟩, rfl⟩) fun hnot => absurd h hnot)

theorem stuck_requireActive (verb : String) : Stuck (requireActive verb) := fun flat h =>
  Proc.yields_get_bind (Proc.yields_failIf_bind (fun _ => ⟨⟨_, rfl⟩, rfl⟩) fun _ =>
    Proc.yields_failIf_bind (fun _ => ⟨⟨_, rfl⟩, rfl⟩) fun _ =>
      Proc.Yields.intro (Proc.failIf_run_of flat h _) ⟨⟨_, rfl⟩, rfl⟩)

/-- What begins with a procedure that is stuck is stuck. -/
theorem Stuck.bind {α β : Type} {x : Proc Status FlatPager α} (hx : Stuck x)
    (f : α → Proc Status FlatPager β) : Stuck (x >>= f) := by
  intro flat h
  refine (hx flat h).bind (fun a _ hmid => ?_) fun e _ hmid => ⟨⟨e, rfl⟩, hmid.2⟩
  obtain ⟨⟨_, hr⟩, -⟩ := hmid
  cases hr

theorem stuck_newPage : Stuck newPage := (stuck_requireActive _).bind _

theorem stuck_commitTransaction (pinned : List PageId) : Stuck (commitTransaction pinned) :=
  (stuck_requireActive _).bind _

theorem stuck_setSystemRoots (tables columns indexes indexColumns : PageId) :
    Stuck (setSystemRoots tables columns indexes indexColumns) := (stuck_markDirty _).bind _

theorem stuck_beginTransaction : Stuck beginTransaction := fun flat h =>
  Proc.yields_get_bind (Proc.yields_failIf_bind (fun _ => ⟨⟨_, rfl⟩, rfl⟩) fun hnot =>
    absurd (by rw [h]; decide : flat.status ≠ .inactive) hnot)

theorem stuck_rollbackTransaction (pinned : List PageId) : Stuck (rollbackTransaction pinned) :=
  fun _ h => Proc.yields_get_bind (Proc.yields_failIf_bind (fun _ => ⟨⟨_, rfl⟩, rfl⟩) fun _ =>
    Proc.yields_failIf_bind (fun _ => ⟨⟨_, rfl⟩, rfl⟩) fun hnot => absurd h hnot)

theorem stuck_markTransactionFailed : Stuck markTransactionFailed := fun _ h =>
  Proc.yields_get_bind (Proc.yields_failIf_bind (fun _ => ⟨⟨_, rfl⟩, rfl⟩) fun _ =>
    Proc.yields_failIf_bind (fun _ => ⟨⟨_, rfl⟩, rfl⟩) fun hnot => absurd h hnot)

theorem stuck_checkpoint : Stuck checkpoint := fun flat h =>
  Proc.yields_get_bind (Proc.Yields.intro (Proc.failIf_run_of flat h _) ⟨⟨_, rfl⟩, rfl⟩)

theorem Stuck.run {α : Type} {x : Proc Status FlatPager α} (hx : Stuck x) {flat : FlatPager}
    (h : flat.status = .unresolved) : ∃ e, x.run flat = (.error e, flat) := by
  have hsame := hx flat h
  unfold Proc.Yields at hsame
  rcases hrun : x.run flat with ⟨r, flat'⟩
  rw [hrun] at hsame
  obtain ⟨⟨e, rfl⟩, rfl⟩ : (∃ e, r = .error e) ∧ flat' = flat := hsame
  exact ⟨e, rfl⟩

/-- What runs without getting stuck had a known outcome before. -/
theorem Stuck.usable {α : Type} {x : Proc Status FlatPager α} (hx : Stuck x)
    {flat flat' : FlatPager} {r : Except Status α} (hrun : x.run flat = (r, flat'))
    (h : flat'.status ≠ .unresolved) : flat.status ≠ .unresolved := fun hun => by
  obtain ⟨e, hstuck⟩ := hx.run hun
  obtain ⟨-, rfl⟩ := Prod.mk.inj (hrun.symm.trans hstuck)
  exact h hun

/-! ## The committed pages -/

/-- The procedure leaves the committed pages alone. -/
def KeepsCommitted {α : Type} (x : Proc Status FlatPager α) : Prop :=
  ∀ flat : FlatPager, x.Yields flat fun _ flat' => flat'.committed = flat.committed

theorem keepsCommitted_getPage (pageId : PageId) : KeepsCommitted (getPage pageId) := fun flat =>
  Proc.yields_get_bind (Proc.yields_failIf_bind (fun _ => rfl) fun _ => by
    split
    · exact Proc.yields_pure rfl
    · exact Proc.yields_fail rfl)

theorem keepsCommitted_markDirty (pageId : PageId) : KeepsCommitted (markDirty pageId) := fun _ =>
  Proc.yields_get_bind (Proc.yields_failIf_bind (fun _ => rfl) fun _ =>
    Proc.yields_failIf_bind (fun _ => rfl) fun _ => Proc.yields_failIf_bind (fun _ => rfl) fun _ =>
      Proc.yields_failIf_bind (fun _ => rfl) fun _ => Proc.yields_modify rfl)

theorem requireActive_same (flat : FlatPager) (verb : String) :
    (requireActive verb).Yields flat fun _ flat' => flat' = flat :=
  Proc.yields_get_bind (Proc.yields_failIf_bind (fun _ => rfl) fun _ =>
    Proc.yields_failIf_bind (fun _ => rfl) fun _ => by
      by_cases h : flat.status = .unresolved
      · exact Proc.Yields.intro (Proc.failIf_run_of flat h _) rfl
      · exact Proc.Yields.intro (Proc.failIf_run_of_not flat h _) rfl)

theorem newPage_id {flat flat' : FlatPager} {pageId : PageId}
    (h : newPage.run flat = (.ok pageId, flat')) : pageId = flat.active.header.pageCount := by
  have hnew : newPage.Yields flat fun r _ => ∀ pageId, r = .ok pageId →
      pageId = flat.active.header.pageCount := by
    refine (requireActive_same flat _).bind (fun _ flat' hsame => ?_) fun e _ _ _ he => by cases he
    subst hsame
    refine Proc.yields_get_bind (Proc.yields_failIf_bind (fun _ _ he => by cases he) fun _ => ?_)
    refine Proc.yields_modify_bind (Proc.yields_pure fun pageId he => ?_)
    cases he
    rfl
  unfold Proc.Yields at hnew
  rw [h] at hnew
  exact hnew pageId rfl

theorem keepsCommitted_newPage : KeepsCommitted newPage := by
  intro flat
  refine (requireActive_same flat _).bind (fun _ flat' hmid => ?_) fun _ _ hmid => by rw [hmid]
  subst hmid
  exact Proc.yields_get_bind (Proc.yields_failIf_bind (fun _ => rfl) fun _ =>
    Proc.yields_modify_bind (Proc.yields_pure rfl))

theorem keepsCommitted_setSystemRoots (tables columns indexes indexColumns : PageId) :
    KeepsCommitted (setSystemRoots tables columns indexes indexColumns) := fun flat =>
  (keepsCommitted_markDirty headerPageId flat).bind (fun _ _ hmid => Proc.yields_modify hmid)
    fun _ _ hmid => hmid

theorem keepsCommitted_beginTransaction : KeepsCommitted beginTransaction := fun _ =>
  Proc.yields_get_bind (Proc.yields_failIf_bind (fun _ => rfl) fun _ => Proc.yields_modify rfl)

theorem keepsCommitted_markTransactionFailed : KeepsCommitted markTransactionFailed := fun _ =>
  Proc.yields_get_bind (Proc.yields_failIf_bind (fun _ => rfl) fun _ =>
    Proc.yields_failIf_bind (fun _ => rfl) fun _ => Proc.yields_modify rfl)

theorem keepsCommitted_rollbackTransaction (pinned : List PageId) :
    KeepsCommitted (rollbackTransaction pinned) := fun _ =>
  Proc.yields_get_bind (Proc.yields_failIf_bind (fun _ => rfl) fun _ =>
    Proc.yields_failIf_bind (fun _ => rfl) fun _ => Proc.yields_failIf_bind (fun _ => rfl) fun _ =>
      Proc.yields_failIf_bind (fun _ => rfl) fun _ => Proc.yields_modify rfl)

theorem keepsCommitted_checkpoint : KeepsCommitted checkpoint := fun flat =>
  Proc.yields_get_bind (by
    by_cases h : flat.status = .unresolved
    · exact Proc.Yields.intro (Proc.failIf_run_of flat h _) rfl
    · exact Proc.Yields.intro (Proc.failIf_run_of_not flat h _) rfl)

theorem commitTransaction_error {flat flat' : FlatPager} {pinned : List PageId} {e : Status}
    (h : (commitTransaction pinned).run flat = (.error e, flat')) : flat' = flat := by
  have hcommit : (commitTransaction pinned).Yields flat fun r flat' =>
      (∃ e, r = .error e) → flat' = flat := by
    refine (requireActive_same flat _).bind (fun _ flat' hmid => ?_) fun _ _ hmid _ => hmid
    subst hmid
    exact Proc.yields_get_bind (Proc.yields_failIf_bind (fun _ _ => rfl) fun _ =>
      Proc.yields_modify fun ⟨_, he⟩ => by cases he)
  unfold Proc.Yields at hcommit
  rw [h] at hcommit
  exact hcommit ⟨e, rfl⟩

theorem requireActive_active {flat : FlatPager} (h : flat.status = .active) (verb : String) :
    (requireActive verb).run flat = (.ok (), flat) := by
  rw [requireActive, Proc.get_bind_run,
    Proc.bind_run_ok (Proc.failIf_run_of_not flat (by rw [h]; decide) _),
    Proc.bind_run_ok (Proc.failIf_run_of_not flat (by rw [h]; decide) _),
    Proc.failIf_run_of_not flat (by rw [h]; decide) _]

/-- A commit succeeds unless a page of the transaction is still pinned. -/
theorem commitTransaction_active {flat : FlatPager} {pinned : List PageId}
    (h : flat.status = .active) (hunpinned : ∀ pageId ∈ pinned, pageId ∉ flat.dirtyPageIds) :
    (commitTransaction pinned).run flat = (.ok (), settled flat.active) := by
  have hclean : ¬∃ pageId ∈ flat.dirtyPageIds, pageId ≠ headerPageId ∧ pageId ∈ pinned :=
    fun ⟨pageId, hdirty, _, hpin⟩ => hunpinned pageId hpin hdirty
  rw [commitTransaction, Proc.bind_run_ok (requireActive_active h _), Proc.get_bind_run,
    Proc.bind_run_ok (Proc.failIf_run_of_not flat hclean _), Proc.modify_run]

/-- A rollback leaves the committed pages, unless a page of the transaction is
still pinned. -/
theorem rollbackTransaction_cases {flat : FlatPager} (pinned : List PageId)
    (h : flat.status = .active ∨ flat.status = .failed) :
    (rollbackTransaction pinned).run flat = (.ok (), settled flat.committed) ∨
      (∃ e, (rollbackTransaction pinned).run flat = (.error e, flat)) ∧
        ∃ pageId ∈ pinned, pageId ∈ flat.dirtyPageIds := by
  have hinactive : flat.status ≠ .inactive := by rcases h with h | h <;> rw [h] <;> decide
  have hunresolved : flat.status ≠ .unresolved := by rcases h with h | h <;> rw [h] <;> decide
  rw [rollbackTransaction, Proc.get_bind_run,
    Proc.bind_run_ok (Proc.failIf_run_of_not flat hinactive _),
    Proc.bind_run_ok (Proc.failIf_run_of_not flat hunresolved _)]
  by_cases horiginal : ∃ pageId ∈ pinned, flat.IsOriginal pageId
  · rw [Proc.bind_run_error (Proc.failIf_run_of flat horiginal _)]
    obtain ⟨pageId, hpin, hdirty⟩ := horiginal
    exact .inr ⟨⟨_, rfl⟩, pageId, hpin, hdirty.1⟩
  rw [Proc.bind_run_ok (Proc.failIf_run_of_not flat horiginal _)]
  by_cases hdirty : ∃ pageId ∈ pinned, pageId ∈ flat.dirtyPageIds
  · rw [Proc.bind_run_error (Proc.failIf_run_of flat hdirty _)]
    exact .inr ⟨⟨_, rfl⟩, hdirty⟩
  · rw [Proc.bind_run_ok (Proc.failIf_run_of_not flat hdirty _)]
    exact .inl rfl

end FlatPager

end DanDB.Storage
