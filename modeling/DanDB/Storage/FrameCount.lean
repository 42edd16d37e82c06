import DanDB.Lib.Untouched
import DanDB.Storage.SessionRuns

/-!
# The number of frames

A pool has the frames it was created with.
-/

namespace DanDB.BufferPool.BufferPoolManager

open DanDB.Core DanDB.Storage

/-- No operation of the pool makes or drops a frame; a search changes nothing at all. -/
theorem leaves_findFrame (verb : String) (pageId : PageId) :
    (findFrame verb pageId).Leaves capacity := by
  refine (Proc.leaves_failIf _ _).bind fun _ => Proc.leaves_get.bind fun bpm => ?_
  split
  · exact Proc.leaves_fail _
  · exact Proc.leaves_pure _

/-- The replacer is another part of the pool. -/
theorem leaves_onLru {α : Type} (x : Proc Status LRUReplacer α) : (onLru x).Leaves capacity :=
  Proc.leaves_zoom fun _ _ => rfl

/-- A frame is rewritten in its place. -/
theorem leaves_setFrame (frameId : FrameId) (frame : BufferFrame) :
    (setFrame frameId frame).Leaves capacity := Proc.leaves_modify fun _ => rfl

/-- The frame that is taken is a free one or a victim. -/
theorem leaves_takeFrame : takeFrame.Leaves capacity := by
  refine Proc.leaves_get.bind fun bpm => ?_
  split
  · refine Proc.Leaves.bind (Proc.leaves_modify ?_) fun _ => Proc.leaves_pure _
    exact fun _ => rfl
  · exact leaves_onLru _

/-- A page is loaded into a frame that is there. -/
theorem leaves_cachePage (page : Page) : (cachePage page).Leaves capacity := by
  refine (Proc.leaves_failIf _ _).bind fun _ => Proc.leaves_get.bind fun bpm => ?_
  refine (Proc.leaves_failIf _ _).bind fun _ => leaves_takeFrame.bind fun f => ?_
  refine Proc.Leaves.bind (Proc.leaves_modify ?_) fun _ => Proc.leaves_pure _
  exact fun _ => rfl

/-- A page that is found is pinned. -/
theorem leaves_getPage (pageId : PageId) : (getPage pageId).Leaves capacity := by
  refine (leaves_findFrame _ _).bind fun f => Proc.Leaves.bind ?_ fun _ => Proc.leaves_pure _
  refine (leaves_findFrame _ _).bind fun f => (leaves_onLru _).bind fun _ => ?_
  exact Proc.leaves_get.bind fun bpm => leaves_setFrame _ _

/-- A pin goes, the frame stays. -/
theorem leaves_unpinPage (pageId : PageId) (isDirty : Bool) :
    (unpinPage pageId isDirty).Leaves capacity := by
  refine (leaves_findFrame _ _).bind fun f => Proc.leaves_get.bind fun bpm => ?_
  refine (Proc.leaves_ofExcept _).bind fun unpinned => (leaves_setFrame _ _).bind fun _ => ?_
  have hevict (frame : BufferFrame) : Proc.Leaves capacity
      (if frame.isPinned = false ∧ frame.isDirty = false then
        onLru (LRUReplacer.markEvictable f) else pure ()) := by
    split
    · exact leaves_onLru _
    · exact Proc.leaves_pure ()
  exact hevict _

theorem capacity_release (pin : PagePin) (bpm : BufferPoolManager) :
    (bpm.release pin).capacity = bpm.capacity := leaves_unpinPage _ _ bpm

theorem leaves_clearDirty (pageId : PageId) : (clearDirty pageId).Leaves capacity := by
  refine (leaves_findFrame _ _).bind fun f => Proc.leaves_get.bind fun bpm => ?_
  refine (leaves_setFrame _ _).bind fun _ => ?_
  split
  · exact leaves_onLru _
  · exact Proc.leaves_pure ()

theorem leaves_isUnpinned (pageId : PageId) : (isUnpinned pageId).Leaves capacity :=
  (leaves_findFrame _ _).bind fun _ => Proc.leaves_get.bind fun _ => Proc.leaves_pure _

theorem leaves_canDiscardPage (pageId : PageId) : (canDiscardPage pageId).Leaves capacity :=
  (leaves_findFrame _ _).bind fun _ => Proc.leaves_get.bind fun _ => Proc.leaves_failIf _ _

/-- A discarded page leaves a free frame. -/
theorem leaves_discardPage (pageId : PageId) : (discardPage pageId).Leaves capacity := by
  refine (leaves_canDiscardPage pageId).bind fun _ => (leaves_findFrame _ _).bind fun f => ?_
  exact (leaves_onLru _).bind fun _ => Proc.leaves_modify fun _ => rfl

theorem leaves_canRestorePage (page : Page) : (canRestorePage page).Leaves capacity :=
  (leaves_findFrame _ _).bind fun _ => Proc.leaves_get.bind fun _ => Proc.leaves_failIf _ _

/-- A restored page stays in its frame. -/
theorem leaves_restorePage (page : Page) : (restorePage page).Leaves capacity := by
  refine (leaves_canRestorePage page).bind fun _ => (leaves_findFrame _ _).bind fun f => ?_
  exact (leaves_clearDirty _).bind fun _ => Proc.leaves_get.bind fun bpm => leaves_setFrame _ _

end DanDB.BufferPool.BufferPoolManager

namespace DanDB.Storage

open DanDB.Core DanDB.Platform DanDB.Wal DanDB.BufferPool

namespace Pager

/-- The number of frames. -/
def frameCount (pager : Pager) : Nat := pager.bpm.capacity

/-- A pager has the frames it is created with, -/
theorem frameCount_of_createEmpty {path : String} {files : Files} {capacity : Nat}
    {databaseId : UInt64} {pager : Pager}
    (h : createEmpty path files capacity databaseId = .ok pager) : pager.frameCount = capacity := by
  simp only [createEmpty, bind_eq_ok] at h
  obtain ⟨_, -, _, -, _, -, _, -, hpager⟩ := h
  cases hpager
  rfl

/-- or opened with. -/
theorem frameCount_of_open {order : IterationOrder PageId} {path : String} {files : Files}
    {capacity : Nat} {pager : Pager} (h : Pager.open order path files capacity = .ok pager) :
    pager.frameCount = capacity := by
  obtain ⟨_, -, h⟩ := bind_eq_ok.mp h
  split at h
  · cases h
  · simp only [bind_eq_ok] at h
    obtain ⟨_, -, _, -, _, -, _, -, _, -, hpager⟩ := h
    cases hpager
    rfl

/-- What leaves the capacity of the pool leaves the number of frames. -/
theorem leaves_onPool {α : Type} {x : Proc Status BufferPoolManager α}
    (h : x.Leaves BufferPoolManager.capacity) : (onPool x).Leaves frameCount := fun pager =>
  h pager.bpm

/-- The files are other parts of the pager. -/
theorem leaves_onDisk {α : Type} (x : Proc Status DiskManager α) : (onDisk x).Leaves frameCount :=
  Proc.leaves_zoom fun _ _ => rfl

theorem leaves_onWal {α : Type} (x : Proc Status WalManager α) : (onWal x).Leaves frameCount :=
  Proc.leaves_zoom fun _ _ => rfl

theorem leaves_setTransaction (state : TransactionState) :
    (setTransaction state).Leaves frameCount := Proc.leaves_modify fun _ => rfl

theorem leaves_release (pin : PagePin) : (release pin).Leaves frameCount :=
  Proc.leaves_modify fun pager => BufferPoolManager.capacity_release pin pager.bpm

theorem leaves_store (pin : PagePin) (data : PageData) : (store pin data).Leaves frameCount :=
  Proc.leaves_modify fun _ => rfl

/-- A page is found in the pool or loaded into it. -/
theorem leaves_getPage (pageId : PageId) : (getPage pageId).Leaves frameCount := by
  have hread : (readCommitted pageId).Leaves frameCount := by
    refine Proc.leaves_get.bind fun pager => ?_
    split
    · exact Proc.leaves_pure _
    · exact leaves_onDisk _
  have hload : (loadPage pageId).Leaves frameCount :=
    hread.bind fun page => leaves_onPool (BufferPoolManager.leaves_cachePage page)
  refine Proc.leaves_get.bind fun pager => (Proc.leaves_failIf _ _).bind fun _ => ?_
  refine (Proc.leaves_failIf _ _).bind fun _ => ?_
  refine (leaves_onPool (BufferPoolManager.leaves_getPage pageId)).attempt.bind fun r => ?_
  cases r with
  | ok pin => exact Proc.leaves_pure pin
  | error status =>
    show Proc.Leaves _ (if _ then _ else _)
    split
    · exact Proc.leaves_fail status
    · exact hload

/-- A snapshot gets a page and lets go of it. -/
theorem leaves_dirtyPageSnapshot (pageId : PageId) : (dirtyPageSnapshot pageId).Leaves frameCount := by
  refine Proc.leaves_get.bind fun pager => ?_
  split
  · exact (Proc.leaves_ofExcept _).bind fun _ => Proc.leaves_pure _
  · refine (leaves_onPool (BufferPoolManager.leaves_getPage pageId)).bind fun pin => ?_
    exact Proc.leaves_get.bind fun _ => (leaves_release pin).bind fun _ => Proc.leaves_pure _

/-- The transaction records the page, the pool keeps it. -/
theorem leaves_markDirty (pageId : PageId) : (markDirty pageId).Leaves frameCount := by
  refine Proc.leaves_get.bind fun pager => (Proc.leaves_failIf _ _).bind fun _ => ?_
  refine (Proc.leaves_failIf _ _).bind fun _ => (Proc.leaves_failIf _ _).bind fun _ => ?_
  refine (Proc.leaves_failIf _ _).bind fun _ => (Proc.leaves_failIf _ _).bind fun _ => ?_
  split
  · exact Proc.leaves_pure ()
  · exact (leaves_dirtyPageSnapshot pageId).bind fun page => leaves_setTransaction _

theorem leaves_mutablePage (pin : PagePin) : (mutablePage pin).Leaves frameCount :=
  Proc.leaves_get.bind fun _ => (leaves_markDirty _).bind fun _ => Proc.leaves_pure _

theorem leaves_requireActive (verb : String) : (requireActive verb).Leaves frameCount := by
  refine Proc.leaves_get.bind fun pager => (Proc.leaves_failIf _ _).bind fun _ => ?_
  refine (Proc.leaves_failIf _ _).bind fun _ => (Proc.leaves_failIf _ _).bind fun _ => ?_
  exact Proc.leaves_failIf _ _

/-- A new page takes a frame that is there. -/
theorem leaves_newPage : newPage.Leaves frameCount := by
  refine (leaves_requireActive _).bind fun _ => Proc.leaves_get.bind fun pager => ?_
  refine (leaves_onPool (BufferPoolManager.leaves_cachePage _)).bind fun pin => ?_
  refine Proc.Leaves.bind ?_ fun _ => ?_
  · refine (leaves_markDirty headerPageId).attempt.bind fun r => ?_
    cases r with
    | ok a => exact Proc.leaves_pure a
    | error status => exact (leaves_release pin).bind fun _ => Proc.leaves_fail status
  · refine Proc.Leaves.bind (Proc.leaves_modify ?_) fun _ => Proc.leaves_pure _
    exact fun _ => rfl

/-- A commit writes the log and cleans frames. -/
theorem leaves_commitTransaction (order : IterationOrder PageId) :
    (commitTransaction order).Leaves frameCount := by
  have hunpinned (pageId : PageId) : (requireUnpinned pageId).Leaves frameCount := by
    unfold requireUnpinned
    split
    · exact Proc.leaves_pure ()
    · exact (leaves_onPool (BufferPoolManager.leaves_isUnpinned pageId)).bind fun _ =>
        Proc.leaves_failIf _ _
  have hlog (pages : List Page) : (writeLog pages).Leaves frameCount := by
    refine Proc.leaves_get.bind fun pager => (leaves_onWal _).attempt.bind fun r => ?_
    cases r with
    | ok => exact Proc.leaves_pure ()
    | error status => exact (leaves_setTransaction _).bind fun _ => Proc.leaves_fail status
  have hpublish (page : Page) : (publishPage page).Leaves frameCount := by
    unfold publishPage
    split
    · exact Proc.leaves_modify fun _ => rfl
    · refine Proc.Leaves.bind (Proc.leaves_modify ?_) fun _ =>
        leaves_onPool (BufferPoolManager.leaves_clearDirty page.id)
      exact fun _ => rfl
  refine (leaves_requireActive _).bind fun _ => Proc.leaves_get.bind fun pager => ?_
  refine (Proc.leaves_forEach hunpinned _).bind fun _ => ?_
  refine (Proc.leaves_collect leaves_dirtyPageSnapshot _).bind fun pages => ?_
  exact (hlog pages).bind fun _ => (Proc.leaves_forEach hpublish pages).bind fun _ =>
    leaves_setTransaction _

/-- A rollback rewrites frames and frees some. -/
theorem leaves_rollbackTransaction (order : IterationOrder PageId) :
    (rollbackTransaction order).Leaves frameCount := by
  have hcheck (entry : PageId × Page) : (checkOriginal entry).Leaves frameCount := by
    refine Proc.leaves_get.bind fun pager => (Proc.leaves_failIf _ _).bind fun _ => ?_
    refine (Proc.leaves_failIf _ _).bind fun _ => ?_
    split
    · exact (Proc.leaves_ofExcept _).bind fun _ => Proc.leaves_pure ()
    · exact leaves_onPool (BufferPoolManager.leaves_canRestorePage entry.2)
  have hrestore (entry : PageId × Page) : (restoreOriginal entry).Leaves frameCount := by
    unfold restoreOriginal
    split
    · exact (Proc.leaves_ofExcept _).bind fun _ => Proc.leaves_modify fun _ => rfl
    · exact leaves_onPool (BufferPoolManager.leaves_restorePage entry.2)
  refine Proc.leaves_get.bind fun pager => (Proc.leaves_failIf _ _).bind fun _ => ?_
  refine (Proc.leaves_failIf _ _).bind fun _ => (Proc.leaves_failIf _ _).bind fun _ => ?_
  refine (Proc.leaves_forEach hcheck _).bind fun _ => ?_
  refine (Proc.leaves_forEach (fun pageId =>
    leaves_onPool (BufferPoolManager.leaves_canDiscardPage pageId)) _).bind fun _ => ?_
  refine (Proc.leaves_forEach hrestore _).bind fun _ => ?_
  refine (Proc.leaves_forEach (fun pageId =>
    leaves_onPool (BufferPoolManager.leaves_discardPage pageId)) _).bind fun _ => ?_
  exact leaves_setTransaction _

/-- A checkpoint writes to the files. -/
theorem leaves_checkpoint (order : IterationOrder PageId) :
    (checkpoint order).Leaves frameCount := by
  refine Proc.leaves_get.bind fun pager => (Proc.leaves_failIf _ _).bind fun _ => ?_
  refine (leaves_onDisk _).bind fun _ => ?_
  refine (Proc.leaves_forEach (fun entry => leaves_onDisk _) _).bind fun _ => ?_
  refine (leaves_onDisk _).bind fun _ => (leaves_onDisk _).bind fun _ => ?_
  exact (leaves_onWal _).bind fun _ => Proc.leaves_modify fun _ => rfl

theorem leaves_beginTransaction : beginTransaction.Leaves frameCount := by
  refine Proc.leaves_get.bind fun pager => (Proc.leaves_failIf _ _).bind fun _ => ?_
  exact (Proc.leaves_failIf _ _).bind fun _ => Proc.leaves_modify fun _ => rfl

theorem leaves_markTransactionFailed : markTransactionFailed.Leaves frameCount := by
  refine Proc.leaves_get.bind fun pager => (Proc.leaves_failIf _ _).bind fun _ => ?_
  refine (Proc.leaves_failIf _ _).bind fun _ => (Proc.leaves_failIf _ _).bind fun _ => ?_
  exact leaves_setTransaction _

theorem leaves_setSystemRoots (tables columns indexes indexColumns : PageId) :
    (setSystemRoots tables columns indexes indexColumns).Leaves frameCount :=
  (leaves_markDirty headerPageId).bind fun _ => Proc.leaves_modify fun _ => rfl

end Pager

namespace Session

variable {s s' : Session} {c : Call} {r : Reply}

theorem perform_frameCount {x : Proc Status Pager Unit} (h : x.Leaves Pager.frameCount)
    (hstep : some (s.perform x) = some (r, s')) : s'.pager.frameCount = s.pager.frameCount := by
  cases hstep
  exact h s.pager

theorem acquire_frameCount {x : Proc Status Pager PagePin} (h : x.Leaves Pager.frameCount)
    (hstep : s.acquire x = (r, s')) : s'.pager.frameCount = s.pager.frameCount := by
  have hleaves := h s.pager
  rw [acquire] at hstep
  rcases hrun : x.run s.pager with ⟨_ | _, pager⟩ <;> rw [hrun] at hleaves hstep <;>
    cases hstep <;> exact hleaves

/-- No call changes the number of frames. -/
theorem Step.frameCount (hstep : s.Step c r s') : s'.pager.frameCount = s.pager.frameCount := by
  cases c with
  | beginTransaction => exact perform_frameCount Pager.leaves_beginTransaction hstep
  | getPage pageId =>
    exact acquire_frameCount (Pager.leaves_getPage pageId) (call_getPage hstep).2
  | newPage => exact acquire_frameCount Pager.leaves_newPage (Option.some.inj hstep)
  | read handle =>
    obtain ⟨pin, -, heq⟩ := Option.map_eq_some_iff.mp hstep
    cases heq
    rfl
  | mutablePage handle =>
    obtain ⟨pin, -, -, heq⟩ := call_mutablePage hstep
    have hleaves := Pager.leaves_mutablePage pin s.pager
    rw [makeMutable] at heq
    rcases hrun : (Pager.mutablePage pin).run s.pager with ⟨_ | _, pager⟩ <;>
      rw [hrun] at hleaves heq <;> cases heq <;> exact hleaves
  | store handle data =>
    obtain ⟨pin, -, heq⟩ := Option.bind_eq_some_iff.mp hstep
    split at heq
    · exact perform_frameCount (Pager.leaves_store pin data) heq
    · cases heq
  | release handle =>
    obtain ⟨pin, -, heq⟩ := Option.map_eq_some_iff.mp hstep
    cases heq
    exact Pager.leaves_release pin s.pager
  | setSystemRoots tables columns indexes indexColumns =>
    rw [Step, call] at hstep
    split at hstep
    · exact perform_frameCount (Pager.leaves_setSystemRoots _ _ _ _) hstep
    · cases hstep
  | commitTransaction order => exact perform_frameCount (Pager.leaves_commitTransaction order) hstep
  | rollbackTransaction order =>
    exact perform_frameCount (Pager.leaves_rollbackTransaction order) hstep
  | markTransactionFailed => exact perform_frameCount Pager.leaves_markTransactionFailed hstep
  | checkpoint order => exact perform_frameCount (Pager.leaves_checkpoint order) hstep
  | setDiskFaults faults =>
    rw [Step, call] at hstep
    split at hstep
    · cases hstep
      rfl
    · cases hstep
  | setWalFaults faults =>
    cases hstep
    rfl

end Session

end DanDB.Storage
