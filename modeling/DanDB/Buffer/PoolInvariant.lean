import DanDB.Buffer.BufferPoolManager

/-!
# The invariant of the buffer pool

`Inv bpm pinned` relates the four structures of the pool to each other and to
`pinned`, the frames of the pins alive.  Each operation is described by what it
does to the contents of the cached pages and to their dirty flags (`Effect`);
an eviction takes a page that is neither dirty nor pinned.
-/

namespace DanDB.BufferPool

open DanDB.Core Storage

namespace BufferPoolManager

structure Inv (bpm : BufferPoolManager) (pinned : List FrameId) : Prop where
  capacity : bpm.lru.capacity = bpm.capacity
  freeNodup : bpm.freeFrameIds.Nodup
  freeLt : ∀ f ∈ bpm.freeFrameIds, f < bpm.capacity
  freeEmpty : ∀ f ∈ bpm.freeFrameIds, bpm.frames f = .empty
  mapped : ∀ pageId f, bpm.pageFrames pageId = some f →
    f < bpm.capacity ∧ f ∉ bpm.freeFrameIds ∧ (bpm.frames f).page.id = pageId ∧
      pageId ≠ invalidPageId
  covered : ∀ f, f < bpm.capacity → f ∉ bpm.freeFrameIds →
    bpm.pageFrames (bpm.frames f).page.id = some f
  lruNodup : bpm.lru.lru.Nodup
  evictable : ∀ f, f ∈ bpm.lru.lru ↔
    f < bpm.capacity ∧ f ∉ bpm.freeFrameIds ∧ (bpm.frames f).pinCount = 0 ∧
      (bpm.frames f).isDirty = false
  pins : ∀ f, f < bpm.capacity → (bpm.frames f).pinCount.toNat = pinned.count f
  pinnedLt : ∀ f ∈ pinned, f < bpm.capacity

/-- The contents of a page in the pool. -/
def content (bpm : BufferPoolManager) (pageId : PageId) : Option PageData :=
  (bpm.pageFrames pageId).map fun f => (bpm.frames f).page.data

/-- Whether the frame of a page is dirty. -/
def dirty (bpm : BufferPoolManager) (pageId : PageId) : Bool :=
  match bpm.pageFrames pageId with
  | none => false
  | some f => (bpm.frames f).isDirty

/-- The page a frame holds. -/
def pageId (bpm : BufferPoolManager) (f : FrameId) : PageId := (bpm.frames f).page.id

/-- What an operation leaves: the invariant, the given contents and dirty flags,
and under every pin the page that was there. -/
structure Effect (bpm bpm' : BufferPoolManager) (pinned pinned' : List FrameId)
    (content' : PageId → Option PageData) (dirty' : PageId → Bool) : Prop where
  inv : bpm'.Inv pinned'
  content : bpm'.content = content'
  dirty : bpm'.dirty = dirty'
  pins : ∀ f ∈ pinned, bpm'.pageId f = bpm.pageId f

theorem create_inv (capacity : Nat) : (create capacity).Inv [] where
  capacity := rfl
  freeNodup := List.nodup_reverse.mpr List.nodup_range
  freeLt f hf := List.mem_range.mp (List.mem_reverse.mp hf)
  freeEmpty _ _ := rfl
  mapped pageId f h := by cases h
  covered f hlt hfree := absurd (List.mem_reverse.mpr (List.mem_range.mpr hlt)) hfree
  lruNodup := List.nodup_nil
  evictable f := by
    simp only [create, List.not_mem_nil, List.mem_reverse, List.mem_range, false_iff]
    rintro ⟨hlt, hge, -⟩
    exact hge hlt
  pins _ _ := rfl
  pinnedLt f hf := by cases hf

section Views

variable {bpm : BufferPoolManager} {pinned : List FrameId}

theorem Inv.perm (h : bpm.Inv pinned) {pinned' : List FrameId} (hperm : pinned.Perm pinned') :
    bpm.Inv pinned' where
  capacity := h.capacity
  freeNodup := h.freeNodup
  freeLt := h.freeLt
  freeEmpty := h.freeEmpty
  mapped := h.mapped
  covered := h.covered
  lruNodup := h.lruNodup
  evictable := h.evictable
  pins f hlt := (h.pins f hlt).trans (hperm.count_eq f)
  pinnedLt f hf := h.pinnedLt f (hperm.mem_iff.mpr hf)

/-- A pinned frame is not free. -/
theorem Inv.not_free (h : bpm.Inv pinned) {f : FrameId} (hf : f ∈ pinned) :
    f ∉ bpm.freeFrameIds := by
  intro hfree
  have hcount := h.pins f (h.pinnedLt f hf)
  rw [h.freeEmpty f hfree] at hcount
  exact absurd hf (List.count_eq_zero.mp hcount.symm)

/-- A frame counts no pins if it has none. -/
theorem Inv.pinCount_eq_zero (h : bpm.Inv pinned) {f : FrameId} (hf : f < bpm.capacity) :
    (bpm.frames f).pinCount = 0 ↔ f ∉ pinned := by
  rw [← UInt32.toNat_inj, h.pins f hf, UInt32.toNat_zero, List.count_eq_zero]

theorem Inv.pageFrames_pageId (h : bpm.Inv pinned) {f : FrameId} (hf : f ∈ pinned) :
    bpm.pageFrames (bpm.pageId f) = some f :=
  h.covered f (h.pinnedLt f hf) (h.not_free hf)

/-- Two pages are never in one frame. -/
theorem Inv.pageFrames_inj (h : bpm.Inv pinned) {p q : PageId} {f : FrameId}
    (hp : bpm.pageFrames p = some f) (hq : bpm.pageFrames q = some f) : p = q :=
  (h.mapped p f hp).2.2.1.symm.trans (h.mapped q f hq).2.2.1

theorem content_of_pageFrames {pageId : PageId} {f : FrameId}
    (h : bpm.pageFrames pageId = some f) :
    bpm.content pageId = some (bpm.frames f).page.data := by
  rw [content, h, Option.map_some]

theorem content_eq_none {pageId : PageId} :
    bpm.content pageId = none ↔ bpm.pageFrames pageId = none := Option.map_eq_none_iff

theorem dirty_of_pageFrames {pageId : PageId} {f : FrameId}
    (h : bpm.pageFrames pageId = some f) : bpm.dirty pageId = (bpm.frames f).isDirty := by
  rw [dirty, h]

theorem dirty_of_none {pageId : PageId} (h : bpm.pageFrames pageId = none) :
    bpm.dirty pageId = false := by
  rw [dirty, h]

/-- A page has a pin iff its frame counts one. -/
theorem Inv.pinCount_pos (h : bpm.Inv pinned) {pageId : PageId} {f : FrameId}
    (hf : bpm.pageFrames pageId = some f) :
    0 < (bpm.frames f).pinCount ↔ ∃ g ∈ pinned, bpm.pageId g = pageId := by
  obtain ⟨hlt, -, hid, -⟩ := h.mapped pageId f hf
  rw [UInt32.lt_iff_toNat_lt, h.pins f hlt, UInt32.toNat_zero, List.count_pos_iff]
  constructor
  · exact fun hmem => ⟨f, hmem, hid⟩
  · rintro ⟨g, hmem, hg⟩
    have := h.pageFrames_pageId hmem
    rw [hg, hf] at this
    cases this
    exact hmem

end Views

/-! ## A change to one frame

Pinning, unpinning, marking and storing all rewrite one mapped frame and keep
its page id; they differ in the new frame and in what becomes of the frame in
the replacer. -/

section OneFrame

variable {bpm : BufferPoolManager} {pinned : List FrameId}

/-- The pool with another frame `f` and another LRU list. -/
def withFrame (bpm : BufferPoolManager) (f : FrameId) (frame : BufferFrame)
    (lru : List FrameId) : BufferPoolManager :=
  { bpm with
    frames := Function.update bpm.frames f frame
    lru := { bpm.lru with lru := lru } }

theorem withFrame_inv (h : bpm.Inv pinned) {pageId : PageId} {f : FrameId}
    (hf : bpm.pageFrames pageId = some f) {frame : BufferFrame} {lru : List FrameId}
    {pinned' : List FrameId} (hid : frame.page.id = pageId) (hnodup : lru.Nodup)
    (hself : f ∈ lru ↔ frame.pinCount = 0 ∧ frame.isDirty = false)
    (hother : ∀ g, g ≠ f → (g ∈ lru ↔ g ∈ bpm.lru.lru))
    (hpin : frame.pinCount.toNat = pinned'.count f)
    (hpins : ∀ g, g ≠ f → pinned'.count g = pinned.count g) :
    (bpm.withFrame f frame lru).Inv pinned' := by
  obtain ⟨hlt, hfree, -, -⟩ := h.mapped pageId f hf
  have hframe (g : FrameId) (hg : g ≠ f) :
      (bpm.withFrame f frame lru).frames g = bpm.frames g := Function.update_of_ne hg ..
  have hframe_self : (bpm.withFrame f frame lru).frames f = frame := Function.update_self ..
  refine ⟨h.capacity, h.freeNodup, h.freeLt, fun g hg => ?_, fun p g hg => ?_,
    fun g hg hgfree => ?_, hnodup, fun g => ?_, fun g hg => ?_, fun g hg => ?_⟩
  · rw [hframe g (fun heq => hfree (heq ▸ hg))]
    exact h.freeEmpty g hg
  · obtain ⟨hglt, hgfree, hgid, hp⟩ := h.mapped p g hg
    refine ⟨hglt, hgfree, ?_, hp⟩
    by_cases heq : g = f
    · subst heq
      rw [hframe_self, hid]
      exact h.pageFrames_inj hf hg
    · rw [hframe g heq, hgid]
  · by_cases heq : g = f
    · subst heq
      rw [hframe_self, hid]
      exact hf
    · rw [hframe g heq]
      exact h.covered g hg hgfree
  · by_cases heq : g = f
    · subst heq
      rw [hframe_self]
      exact hself.trans ⟨fun hs => ⟨hlt, hfree, hs⟩, fun hs => hs.2.2⟩
    · rw [hframe g heq]
      exact (hother g heq).trans (h.evictable g)
  · by_cases heq : g = f
    · subst heq
      rw [hframe_self, hpin]
    · rw [hframe g heq, hpins g heq]
      exact h.pins g hg
  · by_cases heq : g = f
    · exact heq ▸ hlt
    · refine h.pinnedLt g (List.count_pos_iff.mp ?_)
      rw [← hpins g heq]
      exact List.count_pos_iff.mpr hg

theorem withFrame_content (h : bpm.Inv pinned) {pageId : PageId} {f : FrameId}
    (hf : bpm.pageFrames pageId = some f) (frame : BufferFrame) (lru : List FrameId) :
    (bpm.withFrame f frame lru).content =
      Function.update bpm.content pageId (some frame.page.data) := by
  funext p
  by_cases heq : p = pageId
  · subst heq
    rw [Function.update_self]
    exact (@content_of_pageFrames (bpm.withFrame f frame lru) _ _ hf).trans
      (congrArg (fun fr : BufferFrame => some fr.page.data) (Function.update_self ..))
  · rw [Function.update_of_ne heq]
    unfold content
    rcases hp : bpm.pageFrames p with _ | g
    · rw [show (bpm.withFrame f frame lru).pageFrames p = none from hp]
      rfl
    · rw [show (bpm.withFrame f frame lru).pageFrames p = some g from hp]
      have hg : g ≠ f := fun hgf => heq (h.pageFrames_inj hp (hgf ▸ hf))
      exact congrArg (fun fr : BufferFrame => some fr.page.data) (Function.update_of_ne hg ..)

theorem withFrame_dirty (h : bpm.Inv pinned) {pageId : PageId} {f : FrameId}
    (hf : bpm.pageFrames pageId = some f) (frame : BufferFrame) (lru : List FrameId) :
    (bpm.withFrame f frame lru).dirty = Function.update bpm.dirty pageId frame.isDirty := by
  funext p
  by_cases heq : p = pageId
  · subst heq
    rw [Function.update_self]
    exact (@dirty_of_pageFrames (bpm.withFrame f frame lru) _ _ hf).trans
      (congrArg BufferFrame.isDirty (Function.update_self ..))
  · rw [Function.update_of_ne heq]
    unfold dirty
    rcases hp : bpm.pageFrames p with _ | g
    · rw [show (bpm.withFrame f frame lru).pageFrames p = none from hp]
    · rw [show (bpm.withFrame f frame lru).pageFrames p = some g from hp]
      have hg : g ≠ f := fun hgf => heq (h.pageFrames_inj hp (hgf ▸ hf))
      exact congrArg BufferFrame.isDirty (Function.update_of_ne hg ..)

theorem withFrame_pageId (f : FrameId) (frame : BufferFrame)
    (lru : List FrameId) (hid : frame.page.id = bpm.pageId f) (g : FrameId) :
    (bpm.withFrame f frame lru).pageId g = bpm.pageId g := by
  by_cases heq : g = f
  · subst heq
    exact (congrArg (fun fr : BufferFrame => fr.page.id) (Function.update_self ..)).trans hid
  · exact congrArg (fun fr : BufferFrame => fr.page.id) (Function.update_of_ne heq ..)

theorem withFrame_effect (h : bpm.Inv pinned) {pageId : PageId} {f : FrameId}
    (hf : bpm.pageFrames pageId = some f) (frame : BufferFrame) (lru : List FrameId)
    (pinned' : List FrameId) (hid : frame.page.id = pageId) (hnodup : lru.Nodup)
    (hself : f ∈ lru ↔ frame.pinCount = 0 ∧ frame.isDirty = false)
    (hother : ∀ g, g ≠ f → (g ∈ lru ↔ g ∈ bpm.lru.lru))
    (hpin : frame.pinCount.toNat = pinned'.count f)
    (hpins : ∀ g, g ≠ f → pinned'.count g = pinned.count g) :
    Effect bpm (bpm.withFrame f frame lru) pinned pinned'
      (Function.update bpm.content pageId (some frame.page.data))
      (Function.update bpm.dirty pageId frame.isDirty) :=
  ⟨withFrame_inv h hf hid hnodup hself hother hpin hpins, withFrame_content h hf frame lru,
    withFrame_dirty h hf frame lru, fun g _ => withFrame_pageId f frame lru
      (hid.trans (h.mapped pageId f hf).2.2.1.symm) g⟩

end OneFrame

/-! ## Finding the frame of a page -/

section Find

variable {bpm : BufferPoolManager} {pinned : List FrameId}

theorem findFrame_run (verb : String) {pageId : PageId} {f : FrameId}
    (hvalid : pageId ≠ invalidPageId) (hf : bpm.pageFrames pageId = some f) :
    (findFrame verb pageId).run bpm = (.ok f, bpm) := by
  rw [findFrame, Proc.bind_run_ok (Proc.failIf_run_of_not _ hvalid _),
    Proc.get_bind_run, hf]
  rfl

theorem findFrame_run_some (h : bpm.Inv pinned) (verb : String) {pageId : PageId} {f : FrameId}
    (hf : bpm.pageFrames pageId = some f) : (findFrame verb pageId).run bpm = (.ok f, bpm) :=
  findFrame_run verb (h.mapped pageId f hf).2.2.2 hf

theorem findFrame_run_none (verb : String) {pageId : PageId} (hvalid : pageId ≠ invalidPageId)
    (hf : bpm.pageFrames pageId = none) :
    (findFrame verb pageId).run bpm =
      (.error (.NotFound s!"Cannot {verb} page: page is not cached"), bpm) := by
  rw [findFrame, Proc.bind_run_ok (Proc.failIf_run_of_not _ hvalid _),
    Proc.get_bind_run, hf]
  rfl

theorem onLru_run_ok {α : Type} {x : Proc Status LRUReplacer α} {a : α} {lru : LRUReplacer}
    (h : x.run bpm.lru = (.ok a, lru)) :
    (onLru x).run bpm = (.ok a, { bpm with lru := lru }) := by
  rw [onLru, Proc.zoom_run, h]

end Find

/-! ## Pinning -/

section Pin

variable {bpm : BufferPoolManager} {pinned : List FrameId}

theorem getPage_run_none {pageId : PageId} (hvalid : pageId ≠ invalidPageId)
    (hf : bpm.pageFrames pageId = none) :
    (getPage pageId).run bpm =
      (.error (.NotFound "Cannot get page: page is not cached"), bpm) := by
  rw [getPage, Proc.bind_run_error (findFrame_run_none "get" hvalid hf)]
  rfl

section Cached

variable {pageId : PageId} {f : FrameId} (hvalid : pageId ≠ invalidPageId)
  (hf : bpm.pageFrames pageId = some f) (hlt : f < bpm.lru.capacity)

include hvalid hf hlt

/-- A pin, whether or not the frame can count it. -/
theorem pinPage_run_cached : (pinPage pageId).run bpm =
    (.ok (), bpm.withFrame f (bpm.frames f).pin (bpm.lru.lru.erase f)) := by
  rw [pinPage, Proc.bind_run_ok (findFrame_run "pin" hvalid hf),
    Proc.bind_run_ok (onLru_run_ok (LRUReplacer.markNonEvictable_run hlt))]
  rfl

theorem getPage_run_cached : (getPage pageId).run bpm =
    (.ok ⟨f, false⟩, bpm.withFrame f (bpm.frames f).pin (bpm.lru.lru.erase f)) := by
  rw [getPage, Proc.bind_run_ok (findFrame_run "get" hvalid hf),
    Proc.bind_run_ok (pinPage_run_cached hvalid hf hlt)]
  rfl

end Cached

theorem pinPage_run (h : bpm.Inv pinned) {pageId : PageId} {f : FrameId}
    (hf : bpm.pageFrames pageId = some f) :
    (pinPage pageId).run bpm =
      (.ok (), bpm.withFrame f (bpm.frames f).pin (bpm.lru.lru.erase f)) := by
  obtain ⟨hlt, -, -, hvalid⟩ := h.mapped pageId f hf
  exact pinPage_run_cached hvalid hf (h.capacity.symm ▸ hlt)

theorem getPage_run_some (h : bpm.Inv pinned) {pageId : PageId} {f : FrameId}
    (hf : bpm.pageFrames pageId = some f) :
    (getPage pageId).run bpm =
      (.ok ⟨f, false⟩, bpm.withFrame f (bpm.frames f).pin (bpm.lru.lru.erase f)) := by
  obtain ⟨hlt, -, -, hvalid⟩ := h.mapped pageId f hf
  exact getPage_run_cached hvalid hf (h.capacity.symm ▸ hlt)

/-- A pin changes neither contents nor dirty flags. -/
theorem getPage_effect (h : bpm.Inv pinned) {pageId : PageId} {f : FrameId}
    (hf : bpm.pageFrames pageId = some f) (hroom : pinned.count f < maxPins) :
    Effect bpm (bpm.withFrame f (bpm.frames f).pin (bpm.lru.lru.erase f)) pinned (f :: pinned)
      bpm.content bpm.dirty := by
  obtain ⟨hlt, -, hid, -⟩ := h.mapped pageId f hf
  rw [← h.pins f hlt] at hroom
  have heffect := withFrame_effect h hf (bpm.frames f).pin (bpm.lru.lru.erase f) (f :: pinned)
    hid (h.lruNodup.erase f)
    ⟨fun hmem => absurd hmem h.lruNodup.not_mem_erase,
      fun hp => absurd hp.1 (BufferFrame.pinCount_pin_ne_zero hroom)⟩
    (fun g hg => List.mem_erase_of_ne hg)
    (by rw [List.count_cons_self, ← h.pins f hlt, BufferFrame.toNat_pinCount_pin hroom])
    (fun g hg => List.count_cons_of_ne (Ne.symm hg))
  have hcontent : some (bpm.frames f).pin.page.data = bpm.content pageId :=
    (content_of_pageFrames hf).symm
  have hdirty : (bpm.frames f).pin.isDirty = bpm.dirty pageId := (dirty_of_pageFrames hf).symm
  rwa [hcontent, hdirty, Function.update_eq_self, Function.update_eq_self] at heffect

/-- Getting a page of the pool: a pin on the frame that has it. -/
theorem getPage_cached (h : bpm.Inv pinned) {pageId : PageId} {f : FrameId}
    (hf : bpm.pageFrames pageId = some f) (hroom : pinned.count f < maxPins) :
    ∃ bpm', (getPage pageId).run bpm = (.ok ⟨f, false⟩, bpm') ∧
      Effect bpm bpm' pinned (f :: pinned) bpm.content bpm.dirty ∧
      (bpm'.frames f).page = (bpm.frames f).page ∧ (bpm.frames f).page.id = pageId := by
  have hframe : (bpm.withFrame f (bpm.frames f).pin (bpm.lru.lru.erase f)).frames f =
      (bpm.frames f).pin := Function.update_self ..
  exact ⟨_, getPage_run_some h hf, getPage_effect h hf hroom, by rw [hframe]; rfl,
    (h.mapped pageId f hf).2.2.1⟩

/-- The frame of a pin as the release leaves it. -/
def unpinned (frame : BufferFrame) (isDirty : Bool) : BufferFrame :=
  { frame with pinCount := frame.pinCount - 1, isDirty := frame.isDirty || isDirty }

/-- The list of the replacer after a pin of the frame `f` is gone. -/
def lruAfterUnpin (bpm : BufferPoolManager) (f : FrameId) (isDirty : Bool) : List FrameId :=
  if (unpinned (bpm.frames f) isDirty).isPinned = false ∧
      (unpinned (bpm.frames f) isDirty).isDirty = false then
    if f ∈ bpm.lru.lru then bpm.lru.lru else f :: bpm.lru.lru
  else bpm.lru.lru

theorem unpinPage_run (h : bpm.Inv pinned) {pageId : PageId} {f : FrameId}
    (hf : bpm.pageFrames pageId = some f) (hpin : f ∈ pinned) (isDirty : Bool) :
    (unpinPage pageId isDirty).run bpm =
      (.ok (), bpm.withFrame f (unpinned (bpm.frames f) isDirty)
        (bpm.lruAfterUnpin f isDirty)) := by
  have hlt := h.pinnedLt _ hpin
  have hpos : (bpm.frames f).pinCount > 0 :=
    (h.pinCount_pos hf).mpr ⟨f, hpin, (h.mapped pageId f hf).2.2.1⟩
  have hunpin : (bpm.frames f).unpin =
      .ok { bpm.frames f with pinCount := (bpm.frames f).pinCount - 1 } := if_pos hpos
  have hframe : (if isDirty = true then
        BufferFrame.setDirty { bpm.frames f with pinCount := (bpm.frames f).pinCount - 1 } true
      else { bpm.frames f with pinCount := (bpm.frames f).pinCount - 1 }) =
      unpinned (bpm.frames f) isDirty := by
    cases isDirty
    · rw [if_neg (by decide), unpinned, Bool.or_false]
    · rw [if_pos rfl, unpinned, Bool.or_true]
      rfl
  rw [unpinPage, Proc.bind_run_ok (findFrame_run_some h "unpin" hf), Proc.get_bind_run, hunpin]
  rw [Proc.bind_run_ok (Proc.ofExcept_run _ _)]
  simp only [hframe]
  rw [setFrame, Proc.modify_bind_run, lruAfterUnpin]
  split
  · rw [onLru_run_ok (LRUReplacer.markEvictable_run (h.capacity.symm ▸ hlt))]
    rfl
  · rfl

theorem release_eq (h : bpm.Inv pinned) {pin : PagePin} (hpin : pin.frameId ∈ pinned) :
    release pin bpm = bpm.withFrame pin.frameId (unpinned (bpm.frames pin.frameId) pin.isDirty)
      (bpm.lruAfterUnpin pin.frameId pin.isDirty) := by
  have hf : bpm.pageFrames (bpm.frames pin.frameId).page.id = some pin.frameId :=
    h.pageFrames_pageId hpin
  rw [release, unpinPage_run h hf hpin]

/-- A release may leave the page dirty, and nothing else about contents changes. -/
theorem release_effect (h : bpm.Inv pinned) (pin : PagePin) (hpin : pin.frameId ∈ pinned) :
    Effect bpm (release pin bpm) pinned (pinned.erase pin.frameId) bpm.content
      (Function.update bpm.dirty (bpm.pageId pin.frameId)
        (bpm.dirty (bpm.pageId pin.frameId) || pin.isDirty)) := by
  have hlt := h.pinnedLt _ hpin
  have hf := h.pageFrames_pageId hpin
  have hfree := h.not_free hpin
  have hnotlru : pin.frameId ∉ bpm.lru.lru := fun hmem => by
    exact (h.pinCount_eq_zero hlt).mp ((h.evictable _).mp hmem).2.2.1 hpin
  have heffect := withFrame_effect h hf (unpinned (bpm.frames pin.frameId) pin.isDirty)
    (bpm.lruAfterUnpin pin.frameId pin.isDirty) (pinned.erase pin.frameId) rfl ?_ ?_ ?_ ?_ ?_
  · rw [← release_eq h hpin] at heffect
    have hcontent : some (unpinned (bpm.frames pin.frameId) pin.isDirty).page.data =
        bpm.content (bpm.pageId pin.frameId) := (content_of_pageFrames hf).symm
    have hdirty : (unpinned (bpm.frames pin.frameId) pin.isDirty).isDirty =
        (bpm.dirty (bpm.pageId pin.frameId) || pin.isDirty) := by
      rw [dirty_of_pageFrames hf]
      rfl
    rwa [hcontent, hdirty, Function.update_eq_self] at heffect
  · rw [lruAfterUnpin, if_neg hnotlru]
    split
    · exact List.nodup_cons.mpr ⟨hnotlru, h.lruNodup⟩
    · exact h.lruNodup
  · rw [lruAfterUnpin, if_neg hnotlru]
    split
    · rename_i hclean
      refine ⟨fun _ => ⟨?_, hclean.2⟩, fun _ => List.mem_cons_self ..⟩
      exact BufferFrame.isPinned_eq_false.mp hclean.1
    · rename_i hclean
      refine ⟨fun hmem => absurd hmem hnotlru, fun ⟨hzero, hd⟩ => absurd ⟨?_, hd⟩ hclean⟩
      exact BufferFrame.isPinned_eq_false.mpr hzero
  · intro g hg
    rw [lruAfterUnpin, if_neg hnotlru]
    split
    · rw [List.mem_cons]
      exact or_iff_right hg
    · rfl
  · have hpos : 0 < (bpm.frames pin.frameId).pinCount.toNat := by
      rw [h.pins _ hlt]
      exact List.count_pos_iff.mpr hpin
    rw [List.count_erase_self, ← h.pins _ hlt]
    exact BufferFrame.toNat_pinCount_sub_one hpos
  · exact fun g hg => List.count_erase_of_ne hg

/-- A store changes the contents of the page under the pin. -/
theorem store_effect (h : bpm.Inv pinned) (pin : PagePin) (hpin : pin.frameId ∈ pinned)
    (data : PageData) :
    Effect bpm (store pin data bpm) pinned pinned
      (Function.update bpm.content (bpm.pageId pin.frameId) (some data)) bpm.dirty := by
  have hlt := h.pinnedLt _ hpin
  have hf := h.pageFrames_pageId hpin
  have heffect := withFrame_effect h hf { bpm.frames pin.frameId with
      page := { (bpm.frames pin.frameId).page with data := data } } bpm.lru.lru pinned
    rfl h.lruNodup ?_ (fun g _ => Iff.rfl) (h.pins _ hlt) (fun g _ => rfl)
  · have hdirty : Function.update bpm.dirty (bpm.pageId pin.frameId)
        (bpm.frames pin.frameId).isDirty = bpm.dirty := by
      rw [← dirty_of_pageFrames hf, Function.update_eq_self]
    exact ⟨heffect.inv, heffect.content, heffect.dirty.trans hdirty, heffect.pins⟩
  · rw [h.evictable]
    exact ⟨fun hs => hs.2.2, fun hs => ⟨hlt, h.not_free hpin, hs⟩⟩

end Pin

/-! ## Undoing changes -/

section Undo

variable {bpm : BufferPoolManager} {pinned : List FrameId}

theorem Effect.trans {bpm' bpm'' : BufferPoolManager} {pinned' pinned'' : List FrameId}
    {content' content'' : PageId → Option PageData} {dirty' dirty'' : PageId → Bool}
    (h : Effect bpm bpm' pinned pinned' content' dirty')
    (h' : Effect bpm' bpm'' pinned' pinned'' content'' dirty'')
    (hsub : ∀ f ∈ pinned, f ∈ pinned') : Effect bpm bpm'' pinned pinned'' content'' dirty'' :=
  ⟨h'.inv, h'.content, h'.dirty, fun f hf => (h'.pins f (hsub f hf)).trans (h.pins f hf)⟩

theorem isPinned_eq_false (h : bpm.Inv pinned) {pageId : PageId} {f : FrameId}
    (hf : bpm.pageFrames pageId = some f) :
    (bpm.frames f).isPinned = false ↔ ¬∃ g ∈ pinned, bpm.pageId g = pageId := by
  rw [← h.pinCount_pos hf, BufferFrame.isPinned, decide_eq_false_iff_not]

/-- The list of the replacer after the frame `f` has become clean. -/
def lruAfterClear (bpm : BufferPoolManager) (f : FrameId) : List FrameId :=
  if (bpm.frames f).isPinned = false then
    (if f ∈ bpm.lru.lru then bpm.lru.lru else f :: bpm.lru.lru)
  else bpm.lru.lru

theorem clearDirty_run (h : bpm.Inv pinned) {pageId : PageId} {f : FrameId}
    (hf : bpm.pageFrames pageId = some f) :
    (clearDirty pageId).run bpm =
      (.ok (), bpm.withFrame f ((bpm.frames f).setDirty false) (bpm.lruAfterClear f)) := by
  have hlt := (h.mapped pageId f hf).1
  rw [clearDirty, Proc.bind_run_ok (findFrame_run_some h "mark clean" hf),
    Proc.get_bind_run, setFrame, Proc.modify_bind_run]
  by_cases hp : (bpm.frames f).isPinned = false
  · rw [if_pos hp, onLru_run_ok (LRUReplacer.markEvictable_run (h.capacity.symm ▸ hlt)),
      withFrame, lruAfterClear, if_pos hp]
  · rw [if_neg hp, withFrame, lruAfterClear, if_neg hp]
    rfl

/-- A clean page stays in the pool; it can be evicted again if nothing pins it. -/
theorem clearDirty_effect (h : bpm.Inv pinned) {pageId : PageId} {f : FrameId}
    (hf : bpm.pageFrames pageId = some f) :
    ∃ bpm', (clearDirty pageId).run bpm = (.ok (), bpm') ∧
      bpm'.pageFrames = bpm.pageFrames ∧
      Effect bpm bpm' pinned pinned bpm.content (Function.update bpm.dirty pageId false) := by
  obtain ⟨hlt, hfree, hid, -⟩ := h.mapped pageId f hf
  have hcontent : some ((bpm.frames f).setDirty false).page.data = bpm.content pageId :=
    (content_of_pageFrames hf).symm
  have hself : f ∈ bpm.lru.lru → (bpm.frames f).pinCount = 0 := fun hmem =>
    ((h.evictable f).mp hmem).2.2.1
  have hpinCount := @BufferFrame.isPinned_eq_false (bpm.frames f)
  have heffect := withFrame_effect h hf ((bpm.frames f).setDirty false) (bpm.lruAfterClear f)
    pinned hid ?_ ?_ ?_ (h.pins f hlt) (fun _ _ => rfl)
  · rw [hcontent, Function.update_eq_self] at heffect
    exact ⟨_, clearDirty_run h hf, rfl, heffect⟩
  · rw [lruAfterClear]
    split
    · split
      · exact h.lruNodup
      · exact List.nodup_cons.mpr ⟨‹_›, h.lruNodup⟩
    · exact h.lruNodup
  · rw [lruAfterClear]
    constructor
    · intro hmem
      refine ⟨?_, rfl⟩
      split at hmem
      · exact hpinCount.mp ‹_›
      · exact hself hmem
    · rintro ⟨hzero, -⟩
      rw [if_pos (hpinCount.mpr hzero)]
      split
      · assumption
      · exact List.mem_cons_self ..
  · intro g hg
    rw [lruAfterClear]
    split
    · split
      · rfl
      · exact List.mem_cons.trans (or_iff_right hg)
    · rfl

theorem canRestorePage_run (h : bpm.Inv pinned) {page : Page} {f : FrameId}
    (hf : bpm.pageFrames page.id = some f) :
    (canRestorePage page).run bpm =
      (Core.failIf (∃ g ∈ pinned, bpm.pageId g = page.id)
        (.InternalError "Cannot restore page: page is pinned"), bpm) := by
  have hiff := isPinned_eq_false h hf
  rw [canRestorePage, Proc.bind_run_ok (findFrame_run_some h "restore" hf),
    Proc.get_bind_run]
  by_cases hp : (bpm.frames f).isPinned = false
  · rw [Proc.failIf_run_of_not _ (by rw [hp]; decide), failIf_of_not (hiff.mp hp)]
  · have hp' : (bpm.frames f).isPinned = true := Bool.not_eq_false _ ▸ hp
    rw [Proc.failIf_run_of _ hp', failIf_of (not_not.mp (mt hiff.mpr hp))]

/-- The pool with a frame that was rewritten and made clean. -/
def restored (bpm : BufferPoolManager) (f : FrameId) (page : Page) : BufferPoolManager :=
  (bpm.withFrame f ((bpm.frames f).setDirty false) (bpm.lruAfterClear f)).withFrame f
    { (bpm.frames f).setDirty false with page := page } (bpm.lruAfterClear f)

theorem restorePage_run (h : bpm.Inv pinned) {page : Page} {f : FrameId}
    (hf : bpm.pageFrames page.id = some f) (hpin : ¬∃ g ∈ pinned, bpm.pageId g = page.id) :
    (restorePage page).run bpm = (.ok (), bpm.restored f page) := by
  have hframe : (bpm.withFrame f ((bpm.frames f).setDirty false) (bpm.lruAfterClear f)).frames f =
      (bpm.frames f).setDirty false := Function.update_self ..
  rw [restorePage, Proc.bind_run_ok ((canRestorePage_run h hf).trans
    (congrArg (·, bpm) (failIf_of_not hpin))),
    Proc.bind_run_ok (findFrame_run_some h "restore" hf), Proc.bind_run_ok (clearDirty_run h hf),
    Proc.get_bind_run, hframe]
  rfl

theorem restorePage_effect (h : bpm.Inv pinned) {page : Page} {f : FrameId}
    (hf : bpm.pageFrames page.id = some f) (hpin : ¬∃ g ∈ pinned, bpm.pageId g = page.id) :
    ∃ bpm', (restorePage page).run bpm = (.ok (), bpm') ∧
      bpm'.pageFrames = bpm.pageFrames ∧
      Effect bpm bpm' pinned pinned (Function.update bpm.content page.id (some page.data))
        (Function.update bpm.dirty page.id false) := by
  obtain ⟨bpm₁, hrun, hframes, heffect⟩ := clearDirty_effect h hf
  obtain rfl : bpm.withFrame f ((bpm.frames f).setDirty false) (bpm.lruAfterClear f) = bpm₁ :=
    (Prod.mk.inj ((clearDirty_run h hf).symm.trans hrun)).2
  set bpm₁ := bpm.withFrame f ((bpm.frames f).setDirty false) (bpm.lruAfterClear f) with hbpm₁
  have hframe : bpm₁.frames f = (bpm.frames f).setDirty false := Function.update_self ..
  have hf₁ : bpm₁.pageFrames page.id = some f := hf
  obtain ⟨hlt, hfree, hid, -⟩ := heffect.inv.mapped page.id f hf₁
  have hstore := withFrame_effect heffect.inv hf₁ { bpm₁.frames f with page := page }
    bpm₁.lru.lru pinned rfl heffect.inv.lruNodup
    ((heffect.inv.evictable f).trans ⟨fun hs => hs.2.2, fun hs => ⟨hlt, hfree, hs⟩⟩)
    (fun g _ => Iff.rfl) (heffect.inv.pins f hlt) (fun g _ => rfl)
  have hrestored : bpm.restored f page =
      bpm₁.withFrame f { bpm₁.frames f with page := page } bpm₁.lru.lru := by
    rw [hframe]
    rfl
  refine ⟨bpm.restored f page, restorePage_run h hf hpin, rfl, ?_⟩
  rw [hrestored]
  refine heffect.trans ⟨hstore.inv, ?_, ?_, hstore.pins⟩ fun _ hg => hg
  · rw [hstore.content, heffect.content]
  · have hdirty : (bpm₁.frames f).isDirty = bpm₁.dirty page.id := (dirty_of_pageFrames hf₁).symm
    have hsame : Function.update bpm₁.dirty page.id (bpm₁.frames f).isDirty = bpm₁.dirty := by
      rw [hdirty, Function.update_eq_self]
    exact (hstore.dirty.trans hsame).trans heffect.dirty

theorem canDiscardPage_run (h : bpm.Inv pinned) {pageId : PageId} {f : FrameId}
    (hf : bpm.pageFrames pageId = some f) :
    (canDiscardPage pageId).run bpm =
      (Core.failIf (∃ g ∈ pinned, bpm.pageId g = pageId)
        (.InternalError "Cannot discard page: page is pinned"), bpm) := by
  have hiff := isPinned_eq_false h hf
  rw [canDiscardPage, Proc.bind_run_ok (findFrame_run_some h "discard" hf),
    Proc.get_bind_run]
  by_cases hp : (bpm.frames f).isPinned = false
  · rw [Proc.failIf_run_of_not _ (by rw [hp]; decide), failIf_of_not (hiff.mp hp)]
  · have hp' : (bpm.frames f).isPinned = true := Bool.not_eq_false _ ▸ hp
    rw [Proc.failIf_run_of _ hp', failIf_of (not_not.mp (mt hiff.mpr hp))]

/-- The pool with the frame `f` of a page emptied and free again. -/
def withoutPage (bpm : BufferPoolManager) (pageId : PageId) (f : FrameId) : BufferPoolManager :=
  { bpm with
    lru := { bpm.lru with lru := bpm.lru.lru.erase f }
    pageFrames := Function.update bpm.pageFrames pageId none
    frames := Function.update bpm.frames f .empty
    freeFrameIds := f :: bpm.freeFrameIds }

/-- The frame of a page that goes becomes free. -/
theorem withoutPage_effect (h : bpm.Inv pinned) {pageId : PageId} {f : FrameId}
    (hf : bpm.pageFrames pageId = some f) (hpin : ¬∃ g ∈ pinned, bpm.pageId g = pageId) :
    Effect bpm (bpm.withoutPage pageId f) pinned pinned
      (Function.update bpm.content pageId none) (Function.update bpm.dirty pageId false) := by
  obtain ⟨hlt, hfree, hid, -⟩ := h.mapped pageId f hf
  have hunpinned : f ∉ pinned := fun hmem => hpin ⟨f, hmem, hid⟩
  have hne {p : PageId} {g : FrameId} (hp : p ≠ pageId) (hg : bpm.pageFrames p = some g) :
      g ≠ f := fun hgf => hp (h.pageFrames_inj hg (hgf ▸ hf))
  have hframe {g : FrameId} (hg : g ≠ f) :
      (bpm.withoutPage pageId f).frames g = bpm.frames g := Function.update_of_ne hg ..
  have hframe_self : (bpm.withoutPage pageId f).frames f = .empty := Function.update_self ..
  have hmap {p : PageId} (hp : p ≠ pageId) :
      (bpm.withoutPage pageId f).pageFrames p = bpm.pageFrames p := Function.update_of_ne hp ..
  have hmap_self : (bpm.withoutPage pageId f).pageFrames pageId = none := Function.update_self ..
  have hmem {g : FrameId} : g ∈ (bpm.withoutPage pageId f).freeFrameIds ↔
      g = f ∨ g ∈ bpm.freeFrameIds := List.mem_cons
  have hlru : (bpm.withoutPage pageId f).lru.lru = bpm.lru.lru.erase f := rfl
  refine ⟨⟨h.capacity, List.nodup_cons.mpr ⟨hfree, h.freeNodup⟩, fun g hg => ?_, fun g hg => ?_,
    fun p g hg => ?_, fun g hg hgfree => ?_, h.lruNodup.erase f, fun g => ?_, fun g hg => ?_,
    h.pinnedLt⟩, ?_, ?_, fun g hg => ?_⟩
  · obtain rfl | hg := hmem.mp hg
    · exact hlt
    · exact h.freeLt g hg
  · by_cases heq : g = f
    · rw [heq, hframe_self]
    · rw [hframe heq]
      exact h.freeEmpty g ((hmem.mp hg).resolve_left heq)
  · have hp : p ≠ pageId := fun heq => by
      rw [heq, hmap_self] at hg
      cases hg
    rw [hmap hp] at hg
    obtain ⟨hglt, hgfree, hgid, hvalid⟩ := h.mapped p g hg
    exact ⟨hglt, fun hm => (hmem.mp hm).elim (hne hp hg) hgfree,
      by rw [hframe (hne hp hg), hgid], hvalid⟩
  · have hgf : g ≠ f := fun heq => hgfree (hmem.mpr (.inl heq))
    have hg' := h.covered g hg fun hm => hgfree (hmem.mpr (.inr hm))
    rw [hframe hgf, hmap, hg']
    intro heq
    rw [heq, hf] at hg'
    exact hgf (Option.some.inj hg').symm
  · by_cases heq : g = f
    · rw [heq, hlru]
      exact ⟨fun hm => absurd hm h.lruNodup.not_mem_erase,
        fun hs => absurd (hmem.mpr (.inl rfl)) hs.2.1⟩
    · rw [hframe heq, hlru, List.mem_erase_of_ne heq, h.evictable, hmem, or_iff_right heq]
      rfl
  · by_cases heq : g = f
    · rw [heq, hframe_self, List.count_eq_zero.mpr hunpinned]
      rfl
    · rw [hframe heq]
      exact h.pins g hg
  · funext p
    by_cases hp : p = pageId
    · rw [hp, Function.update_self, content_eq_none, hmap_self]
    · rw [Function.update_of_ne hp]
      unfold content
      rw [hmap hp]
      rcases hg : bpm.pageFrames p with _ | g
      · rfl
      · rw [Option.map_some, Option.map_some, hframe (hne hp hg)]
  · funext p
    by_cases hp : p = pageId
    · rw [hp, Function.update_self, dirty_of_none hmap_self]
    · rw [Function.update_of_ne hp]
      unfold dirty
      rw [hmap hp]
      rcases hg : bpm.pageFrames p with _ | g
      · rfl
      · simp only [hframe (hne hp hg)]
  · have hgf : g ≠ f := fun heq => hunpinned (heq ▸ hg)
    exact congrArg (fun fr : BufferFrame => fr.page.id) (hframe hgf)

theorem discardPage_run (h : bpm.Inv pinned) {pageId : PageId} {f : FrameId}
    (hf : bpm.pageFrames pageId = some f) (hpin : ¬∃ g ∈ pinned, bpm.pageId g = pageId) :
    (discardPage pageId).run bpm = (.ok (), bpm.withoutPage pageId f) := by
  have hlt := (h.mapped pageId f hf).1
  rw [discardPage, Proc.bind_run_ok ((canDiscardPage_run h hf).trans
    (congrArg (·, bpm) (failIf_of_not hpin))),
    Proc.bind_run_ok (findFrame_run_some h "discard" hf),
    Proc.bind_run_ok (onLru_run_ok
      (LRUReplacer.markNonEvictable_run (h.capacity.symm ▸ hlt)))]
  rfl

theorem isUnpinned_run (h : bpm.Inv pinned) {pageId : PageId} {f : FrameId}
    (hf : bpm.pageFrames pageId = some f) :
    ∃ b, (isUnpinned pageId).run bpm = (.ok b, bpm) ∧
      (b = true ↔ ¬∃ g ∈ pinned, bpm.pageId g = pageId) := by
  refine ⟨!(bpm.frames f).isPinned, ?_, ?_⟩
  · rw [isUnpinned, Proc.bind_run_ok (findFrame_run_some h "mark clean" hf)]
    rfl
  · rw [Bool.not_eq_true', isPinned_eq_false h hf]

end Undo

/-! ## Caching a page -/

section Cache

variable {bpm : BufferPoolManager} {pinned : List FrameId}

/-- The pool with a page in the free frame `f`, pinned once. -/
def withPage (bpm : BufferPoolManager) (page : Page) (f : FrameId) (rest : List FrameId) :
    BufferPoolManager :=
  { bpm with
    freeFrameIds := rest
    frames := Function.update bpm.frames f { BufferFrame.empty with page := page }.pin
    pageFrames := Function.update bpm.pageFrames page.id (some f) }

theorem withPage_pageId (bpm : BufferPoolManager) (page : Page) (f : FrameId)
    (rest : List FrameId) : (bpm.withPage page f rest).pageId f = page.id := by
  simp [pageId, withPage, BufferFrame.pin]

theorem withPage_effect (h : bpm.Inv pinned) {page : Page} {f : FrameId} {rest : List FrameId}
    (hfree : bpm.freeFrameIds = f :: rest) (hvalid : page.id ≠ invalidPageId)
    (hpage : bpm.pageFrames page.id = none) :
    Effect bpm (bpm.withPage page f rest) pinned (f :: pinned)
      (Function.update bpm.content page.id (some page.data)) bpm.dirty := by
  have hffree : f ∈ bpm.freeFrameIds := by rw [hfree]; exact List.mem_cons_self ..
  have hlt := h.freeLt f hffree
  have hunpinned : f ∉ pinned := fun hm => h.not_free hm hffree
  have hnodup := h.freeNodup
  rw [hfree] at hnodup
  have hmem {g : FrameId} : g ∈ bpm.freeFrameIds ↔ g = f ∨ g ∈ rest := by
    rw [hfree, List.mem_cons]
  have hne {p : PageId} {g : FrameId} (hg : bpm.pageFrames p = some g) : g ≠ f := fun heq =>
    (h.mapped p g hg).2.1 (heq ▸ hffree)
  have hframe {g : FrameId} (hg : g ≠ f) : (bpm.withPage page f rest).frames g = bpm.frames g :=
    Function.update_of_ne hg ..
  have hframe_self : (bpm.withPage page f rest).frames f =
      { BufferFrame.empty with page := page }.pin := Function.update_self ..
  have hmap {p : PageId} (hp : p ≠ page.id) :
      (bpm.withPage page f rest).pageFrames p = bpm.pageFrames p := Function.update_of_ne hp ..
  have hmap_self : (bpm.withPage page f rest).pageFrames page.id = some f :=
    Function.update_self ..
  refine ⟨⟨h.capacity, (List.nodup_cons.mp hnodup).2, fun g hg => h.freeLt g (hmem.mpr (.inr hg)),
    fun g hg => ?_, fun p g hg => ?_, fun g hg hgfree => ?_, h.lruNodup, fun g => ?_,
    fun g hg => ?_, fun g hg => ?_⟩, ?_, ?_, fun g hg => ?_⟩
  · have hgf : g ≠ f := fun heq => (List.nodup_cons.mp hnodup).1 (heq ▸ hg)
    rw [hframe hgf]
    exact h.freeEmpty g (hmem.mpr (.inr hg))
  · by_cases hp : p = page.id
    · subst hp
      rw [hmap_self] at hg
      cases hg
      exact ⟨hlt, (List.nodup_cons.mp hnodup).1, by rw [hframe_self]; rfl, hvalid⟩
    · rw [hmap hp] at hg
      obtain ⟨hglt, hgfree, hgid, hp'⟩ := h.mapped p g hg
      exact ⟨hglt, fun hm => hgfree (hmem.mpr (.inr hm)), by rw [hframe (hne hg), hgid], hp'⟩
  · by_cases heq : g = f
    · subst heq
      rw [hframe_self]
      exact hmap_self
    · have hg' := h.covered g hg fun hm => (hmem.mp hm).elim heq hgfree
      rw [hframe heq, hmap, hg']
      intro heq'
      rw [heq', hpage] at hg'
      cases hg'
  · by_cases heq : g = f
    · subst heq
      rw [hframe_self]
      refine ⟨fun hm => absurd hffree ((h.evictable g).mp hm).2.1, fun hs => ?_⟩
      exact absurd hs.2.2.1 (by rintro ⟨⟩)
    · rw [hframe heq]
      refine (h.evictable g).trans ?_
      rw [hmem, not_or]
      exact ⟨fun hs => ⟨hs.1, hs.2.1.2, hs.2.2⟩, fun hs => ⟨hs.1, ⟨heq, hs.2.1⟩, hs.2.2⟩⟩
  · by_cases heq : g = f
    · subst heq
      rw [hframe_self, List.count_cons_self, List.count_eq_zero.mpr hunpinned]
      rfl
    · rw [hframe heq, List.count_cons_of_ne (Ne.symm heq)]
      exact h.pins g hg
  · obtain rfl | hg := List.mem_cons.mp hg
    · exact hlt
    · exact h.pinnedLt g hg
  · funext p
    by_cases hp : p = page.id
    · subst hp
      rw [Function.update_self, content_of_pageFrames hmap_self, hframe_self]
      rfl
    · rw [Function.update_of_ne hp]
      unfold content
      rw [hmap hp]
      rcases hg : bpm.pageFrames p with _ | g
      · rfl
      · rw [Option.map_some, Option.map_some, hframe (hne hg)]
  · funext p
    by_cases hp : p = page.id
    · subst hp
      rw [dirty_of_pageFrames hmap_self, hframe_self, dirty_of_none hpage]
      rfl
    · unfold dirty
      rw [hmap hp]
      rcases hg : bpm.pageFrames p with _ | g
      · rfl
      · simp only [hframe (hne hg)]
  · have hgf : g ≠ f := fun heq => hunpinned (heq ▸ hg)
    exact congrArg (fun fr : BufferFrame => fr.page.id) (hframe hgf)

/-- No frame is free and none can be evicted. -/
def Exhausted (bpm : BufferPoolManager) : Prop := bpm.freeFrameIds = [] ∧ bpm.lru.lru = []

/-- A pool without room is full of pages that are pinned or dirty. -/
theorem exhausted_iff {bpm : BufferPoolManager} {pinned : List FrameId} (h : bpm.Inv pinned) :
    bpm.Exhausted ↔ ∀ f < bpm.capacity, (bpm.frames f).pinCount ≠ 0 ∨ (bpm.frames f).isDirty = true := by
  constructor
  · rintro ⟨hfree, hlru⟩ f hlt
    by_contra hclean
    obtain ⟨hpin, hdirty⟩ := not_or.mp hclean
    have hmem : f ∈ bpm.lru.lru := (h.evictable f).mpr
      ⟨hlt, hfree ▸ List.not_mem_nil, not_not.mp hpin, Bool.eq_false_iff.mpr hdirty⟩
    rw [hlru] at hmem
    cases hmem
  · intro hheld
    constructor
    · refine List.eq_nil_iff_forall_not_mem.mpr fun f hmem => ?_
      have hf := hheld f (h.freeLt f hmem)
      rw [h.freeEmpty f hmem] at hf
      exact hf.elim (· rfl) (by intro hdirty; cases hdirty)
    · refine List.eq_nil_iff_forall_not_mem.mpr fun f hmem => ?_
      obtain ⟨hlt, -, hpin, hdirty⟩ := (h.evictable f).mp hmem
      exact (hheld f hlt).elim (· hpin) fun hd => Bool.false_ne_true (hdirty.symm.trans hd)

/-- The status a full pool answers with. -/
def exhaustedStatus : Status := .NotFound "Cannot choose LRU victim: no evictable frames"

/-- What an insertion leaves of the old contents: everything, or everything but
a page that was neither dirty nor pinned. -/
def Kept (bpm : BufferPoolManager) (pinned : List FrameId)
    (content' : PageId → Option PageData) : Prop :=
  content' = bpm.content ∨ ∃ evicted, content' = Function.update bpm.content evicted none ∧
    bpm.dirty evicted = false ∧ ∀ g ∈ pinned, bpm.pageId g ≠ evicted

theorem Kept.content {content' : PageId → Option PageData} (h : Kept bpm pinned content')
    {pageId : PageId} {data : PageData} (hdata : content' pageId = some data) :
    bpm.content pageId = some data := by
  obtain rfl | ⟨evicted, rfl, -⟩ := h
  · exact hdata
  · by_cases heq : pageId = evicted
    · rw [heq, Function.update_self] at hdata
      cases hdata
    · rwa [Function.update_of_ne heq] at hdata

theorem cachePage_bind (page : Page) (hvalid : page.id ≠ invalidPageId)
    (hpage : bpm.pageFrames page.id = none) {victimFrameId : FrameId} {bpm' : BufferPoolManager}
    (htake : takeFrame.run bpm = (.ok victimFrameId, bpm')) :
    (cachePage page).run bpm = (.ok ⟨victimFrameId, false⟩, { bpm' with
      frames := Function.update bpm'.frames victimFrameId { BufferFrame.empty with page := page }.pin
      pageFrames := Function.update
        (Function.update bpm'.pageFrames (bpm'.frames victimFrameId).page.id none) page.id
        (some victimFrameId) }) := by
  rw [cachePage, Proc.bind_run_ok (Proc.failIf_run_of_not _ hvalid _), Proc.get_bind_run,
    Proc.bind_run_ok (Proc.failIf_run_of_not _ (by rw [hpage]; decide) _),
    Proc.bind_run_ok htake, Proc.modify_bind_run]
  rfl

/-- A free frame takes the page. -/
theorem cachePage_run_free (h : bpm.Inv pinned) (page : Page) (hvalid : page.id ≠ invalidPageId)
    (hpage : bpm.pageFrames page.id = none) {f : FrameId} {rest : List FrameId}
    (hfree : bpm.freeFrameIds = f :: rest) :
    (cachePage page).run bpm = (.ok ⟨f, false⟩, bpm.withPage page f rest) := by
  have hempty := h.freeEmpty f (by rw [hfree]; exact List.mem_cons_self ..)
  have htake : takeFrame.run bpm = (.ok f, { bpm with freeFrameIds := rest }) := by
    rw [takeFrame, Proc.get_bind_run, hfree]
    rfl
  have hinvalid : bpm.pageFrames invalidPageId = none := by
    rcases hg : bpm.pageFrames invalidPageId with _ | g
    · rfl
    · exact absurd rfl (h.mapped _ g hg).2.2.2
  have hsame : Function.update bpm.pageFrames (bpm.frames f).page.id none = bpm.pageFrames := by
    rw [hempty]
    exact Function.update_eq_self_iff.mpr hinvalid.symm
  rw [cachePage_bind page hvalid hpage htake]
  simp only [withPage, hsame]

/-- Without a free frame the page takes the place of the one that has been
evictable for the longest time. -/
theorem cachePage_run_victim (h : bpm.Inv pinned) (page : Page)
    (hvalid : page.id ≠ invalidPageId) (hpage : bpm.pageFrames page.id = none)
    (hfree : bpm.freeFrameIds = []) {v : FrameId} (hlast : bpm.lru.lru.getLast? = some v) :
    (cachePage page).run bpm =
      (.ok ⟨v, false⟩, (bpm.withoutPage (bpm.frames v).page.id v).withPage page v []) := by
  obtain ⟨init, hinit⟩ := List.getLast?_eq_some_iff.mp hlast
  have htake : takeFrame.run bpm =
      (.ok v, { bpm with lru := { bpm.lru with lru := bpm.lru.lru.dropLast } }) := by
    have htake' : takeFrame.run bpm = (onLru LRUReplacer.victim).run bpm := by
      rw [takeFrame, Proc.get_bind_run, hfree]
    exact htake'.trans (onLru_run_ok (LRUReplacer.victim_run_some hlast))
  have herase : bpm.lru.lru.erase v = bpm.lru.lru.dropLast := by
    have hnodup := h.lruNodup
    rw [hinit] at hnodup ⊢
    rw [List.erase_append_right _ fun hm => ?_, List.dropLast_concat, List.erase_cons_head,
      List.append_nil]
    exact (List.nodup_append.mp hnodup).2.2 v hm v (List.mem_singleton_self v) rfl
  rw [cachePage_bind page hvalid hpage htake]
  simp only [withPage, withoutPage, Function.update_idem, herase, hfree]

theorem cachePage_run_exhausted (page : Page) (hvalid : page.id ≠ invalidPageId)
    (hpage : bpm.pageFrames page.id = none) (h : bpm.Exhausted) :
    (cachePage page).run bpm = (.error exhaustedStatus, bpm) := by
  rw [cachePage, Proc.bind_run_ok (Proc.failIf_run_of_not _ hvalid _), Proc.get_bind_run,
    Proc.bind_run_ok (Proc.failIf_run_of_not _ (by rw [hpage]; decide) _)]
  refine Proc.bind_run_error ?_
  rw [takeFrame, Proc.get_bind_run, h.1, onLru, Proc.zoom_run, LRUReplacer.victim_run_nil h.2]
  rfl

/-- What `cache_page` does to a pool that does not have the page: it takes a
free frame, or that of a page that is neither dirty nor pinned, or fails. -/
theorem cachePage_run (h : bpm.Inv pinned) (page : Page) (hvalid : page.id ≠ invalidPageId)
    (hpage : bpm.pageFrames page.id = none) :
    (∃ f bpm', (cachePage page).run bpm = (.ok ⟨f, false⟩, bpm') ∧
      bpm'.pageId f = page.id ∧
      ∃ content', Effect bpm bpm' pinned (f :: pinned)
          (Function.update content' page.id (some page.data)) bpm.dirty ∧
        Kept bpm pinned content') ∨
    bpm.Exhausted ∧ (cachePage page).run bpm = (.error exhaustedStatus, bpm) := by
  rcases hfree : bpm.freeFrameIds with _ | ⟨f, rest⟩
  · rcases hlast : bpm.lru.lru.getLast? with _ | v
    · have hfull : bpm.Exhausted := ⟨hfree, List.getLast?_eq_none_iff.mp hlast⟩
      exact .inr ⟨hfull, cachePage_run_exhausted page hvalid hpage hfull⟩
    · left
      have hv : v ∈ bpm.lru.lru := List.mem_of_getLast? hlast
      obtain ⟨hvlt, hvfree, hvpins, hvclean⟩ := (h.evictable v).mp hv
      have hvmap := h.covered v hvlt hvfree
      have hvpin : ¬∃ g ∈ pinned, bpm.pageId g = (bpm.frames v).page.id :=
        (isPinned_eq_false h hvmap).mp (BufferFrame.isPinned_eq_false.mpr hvpins)
      have hvne : (bpm.frames v).page.id ≠ page.id := fun heq => by
        rw [heq, hpage] at hvmap
        cases hvmap
      have hevict := withoutPage_effect h hvmap hvpin
      have hpage' : (bpm.withoutPage (bpm.frames v).page.id v).pageFrames page.id = none :=
        (Function.update_of_ne (Ne.symm hvne) ..).trans hpage
      have hfree' : (bpm.withoutPage (bpm.frames v).page.id v).freeFrameIds = v :: [] := by
        rw [← hfree]
        rfl
      have hfill := withPage_effect hevict.inv hfree' hvalid hpage'
      have hvdirty : bpm.dirty (bpm.frames v).page.id = false := by
        rw [dirty_of_pageFrames hvmap, hvclean]
      refine ⟨v, _, cachePage_run_victim h page hvalid hpage hfree hlast, withPage_pageId .., _,
        ⟨hfill.inv, hfill.content.trans (by rw [hevict.content]), hfill.dirty.trans ?_,
          fun g hg => (hfill.pins g hg).trans (hevict.pins g hg)⟩,
        .inr ⟨_, rfl, hvdirty, fun g hg heq => hvpin ⟨g, hg, heq⟩⟩⟩
      rw [hevict.dirty, ← hvdirty, Function.update_eq_self]
  · left
    exact ⟨f, _, cachePage_run_free h page hvalid hpage hfree, withPage_pageId .., _,
      withPage_effect h hfree hvalid hpage, .inl rfl⟩

end Cache

end BufferPoolManager

end DanDB.BufferPool
