import DanDB.Buffer.LRUReplacer
import DanDB.Storage.Page

/-!
# The buffer pool

A fixed number of frames, each empty or holding one page.  A pin is a reference
to the page of a frame; the frame may be given to another page only when
nothing is pinned to it and it is not dirty.
-/

namespace DanDB.BufferPool

open DanDB.Core Storage

/-- The most pins that a frame can count. -/
def maxPins : Nat := 2 ^ 32 - 1

structure BufferFrame where
  page : Page
  /-- `pin_count_`, a `std::uint32_t`. -/
  pinCount : UInt32
  isDirty : Bool
deriving DecidableEq

namespace BufferFrame

/-- A frame after `reset`. -/
def empty : BufferFrame := ⟨Page.ofId invalidPageId, 0, false⟩

/-- `pin`, which does not look for an overflow: the pin after 2^32 - 1 pins brings
the count back to zero. -/
def pin (frame : BufferFrame) : BufferFrame := { frame with pinCount := frame.pinCount + 1 }

def unpin (frame : BufferFrame) : Result BufferFrame :=
  if frame.pinCount > 0 then .ok { frame with pinCount := frame.pinCount - 1 }
  else .error (.InternalError "Cannot unpin buffer frame with pin count 0")

def isPinned (frame : BufferFrame) : Bool := frame.pinCount > 0

def setDirty (frame : BufferFrame) (isDirty : Bool) : BufferFrame :=
  { frame with isDirty := isDirty }

variable {frame : BufferFrame}

/-- As long as a frame can count its pins, one more is counted. -/
theorem toNat_pinCount_pin (h : frame.pinCount.toNat < maxPins) :
    frame.pin.pinCount.toNat = frame.pinCount.toNat + 1 := by
  rw [pin, UInt32.toNat_add, UInt32.toNat_one, Nat.mod_eq_of_lt (Nat.add_lt_of_lt_sub h)]

theorem pinCount_pin_ne_zero (h : frame.pinCount.toNat < maxPins) : frame.pin.pinCount ≠ 0 := by
  intro hzero
  have hpin := toNat_pinCount_pin h
  rw [hzero] at hpin
  cases hpin

theorem toNat_pinCount_sub_one (h : 0 < frame.pinCount.toNat) :
    (frame.pinCount - 1).toNat = frame.pinCount.toNat - 1 := by
  have hle : (1 : UInt32) ≤ frame.pinCount := UInt32.le_iff_toNat_le.mpr h
  rw [UInt32.toNat_sub_of_le _ _ hle, UInt32.toNat_one]

theorem isPinned_eq_false : frame.isPinned = false ↔ frame.pinCount = 0 := by
  rw [isPinned, decide_eq_false_iff_not, gt_iff_lt, UInt32.lt_iff_toNat_lt, UInt32.toNat_zero,
    Nat.pos_iff_ne_zero, not_not, ← UInt32.toNat_inj, UInt32.toNat_zero]

end BufferFrame

/-- `PagePin`: a pointer to the page of a frame. -/
structure PagePin where
  frameId : FrameId
  isDirty : Bool
deriving DecidableEq

structure BufferPoolManager where
  capacity : Nat
  /-- `free_frame_ids_`, back to front. -/
  freeFrameIds : List FrameId
  frames : FrameId → BufferFrame
  pageFrames : PageId → Option FrameId
  lru : LRUReplacer

namespace BufferPoolManager

/-- The constructor. -/
def create (capacity : Nat) : BufferPoolManager where
  capacity := capacity
  freeFrameIds := (List.range capacity).reverse
  frames := fun _ => .empty
  pageFrames := fun _ => none
  lru := ⟨capacity, []⟩

/-- An operation on the replacer. -/
def onLru {α : Type} (x : Proc Status LRUReplacer α) : Proc Status BufferPoolManager α :=
  Proc.zoom BufferPoolManager.lru (fun lru bpm => { bpm with lru := lru }) x

/-- Replace the contents of a frame. -/
def setFrame (frameId : FrameId) (frame : BufferFrame) : Proc Status BufferPoolManager Unit :=
  Proc.modify fun bpm => { bpm with frames := Function.update bpm.frames frameId frame }

/-- The frame of a page, with the checks every operation on a cached page
makes first; `verb` is the word in which their messages differ. -/
def findFrame (verb : String) (pageId : PageId) : Proc Status BufferPoolManager FrameId := do
  Proc.failIf (pageId = invalidPageId)
    (.InvalidArgument s!"Cannot {verb} page: invalid page id")
  let bpm ← Proc.get
  match bpm.pageFrames pageId with
  | none => Proc.fail (.NotFound s!"Cannot {verb} page: page is not cached")
  | some frameId => return frameId

def pinPage (pageId : PageId) : Proc Status BufferPoolManager Unit := do
  let frameId ← findFrame "pin" pageId
  onLru (LRUReplacer.markNonEvictable frameId)
  let bpm ← Proc.get
  setFrame frameId (bpm.frames frameId).pin

def unpinPage (pageId : PageId) (isDirty : Bool) : Proc Status BufferPoolManager Unit := do
  let frameId ← findFrame "unpin" pageId
  let bpm ← Proc.get
  let unpinned ← Proc.ofExcept (bpm.frames frameId).unpin
  let frame := if isDirty then unpinned.setDirty true else unpinned
  setFrame frameId frame
  if frame.isPinned = false ∧ frame.isDirty = false then
    onLru (LRUReplacer.markEvictable frameId)

def getPage (pageId : PageId) : Proc Status BufferPoolManager PagePin := do
  let frameId ← findFrame "get" pageId
  pinPage pageId
  return ⟨frameId, false⟩

/-- A frame for a new page: a free one, or the victim of the replacer. -/
def takeFrame : Proc Status BufferPoolManager FrameId := do
  let bpm ← Proc.get
  match bpm.freeFrameIds with
  | frameId :: rest =>
    Proc.modify fun bpm => { bpm with freeFrameIds := rest }
    return frameId
  | [] => onLru LRUReplacer.victim

def cachePage (page : Page) : Proc Status BufferPoolManager PagePin := do
  Proc.failIf (page.id = invalidPageId)
    (.InvalidArgument "Cannot cache page: invalid page id")
  let bpm ← Proc.get
  Proc.failIf ((bpm.pageFrames page.id).isSome = true)
    (.AlreadyExists "Cannot cache page: page is already cached")
  let victimFrameId ← takeFrame
  Proc.modify fun bpm =>
    let erased := Function.update bpm.pageFrames (bpm.frames victimFrameId).page.id none
    { bpm with
      frames := Function.update bpm.frames victimFrameId { BufferFrame.empty with page := page }.pin
      pageFrames := Function.update erased page.id (some victimFrameId) }
  return ⟨victimFrameId, false⟩

def clearDirty (pageId : PageId) : Proc Status BufferPoolManager Unit := do
  let frameId ← findFrame "mark clean" pageId
  let bpm ← Proc.get
  setFrame frameId ((bpm.frames frameId).setDirty false)
  if (bpm.frames frameId).isPinned = false then
    onLru (LRUReplacer.markEvictable frameId)

def canDiscardPage (pageId : PageId) : Proc Status BufferPoolManager Unit := do
  let frameId ← findFrame "discard" pageId
  let bpm ← Proc.get
  Proc.failIf ((bpm.frames frameId).isPinned = true)
    (.InternalError "Cannot discard page: page is pinned")

def discardPage (pageId : PageId) : Proc Status BufferPoolManager Unit := do
  canDiscardPage pageId
  let frameId ← findFrame "discard" pageId
  onLru (LRUReplacer.markNonEvictable frameId)
  Proc.modify fun bpm => { bpm with
    pageFrames := Function.update bpm.pageFrames pageId none
    frames := Function.update bpm.frames frameId .empty
    freeFrameIds := frameId :: bpm.freeFrameIds }

def canRestorePage (page : Page) : Proc Status BufferPoolManager Unit := do
  let frameId ← findFrame "restore" page.id
  let bpm ← Proc.get
  Proc.failIf ((bpm.frames frameId).isPinned = true)
    (.InternalError "Cannot restore page: page is pinned")

def restorePage (page : Page) : Proc Status BufferPoolManager Unit := do
  canRestorePage page
  let frameId ← findFrame "restore" page.id
  clearDirty page.id
  let bpm ← Proc.get
  setFrame frameId { bpm.frames frameId with page := page }

def isUnpinned (pageId : PageId) : Proc Status BufferPoolManager Bool := do
  let frameId ← findFrame "mark clean" pageId
  let bpm ← Proc.get
  return !(bpm.frames frameId).isPinned

/-- `PagePin::release`, which drops the status of `unpin_page`. -/
def release (pin : PagePin) (bpm : BufferPoolManager) : BufferPoolManager :=
  ((unpinPage (bpm.frames pin.frameId).page.id pin.isDirty).run bpm).2

/-- An assignment through the page pointer of a pin. -/
def store (pin : PagePin) (data : PageData) (bpm : BufferPoolManager) : BufferPoolManager :=
  let frame := bpm.frames pin.frameId
  { bpm with
    frames := Function.update bpm.frames pin.frameId
      { frame with page := { frame.page with data := data } } }

end BufferPoolManager

end DanDB.BufferPool
