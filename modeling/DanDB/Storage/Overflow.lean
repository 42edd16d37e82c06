import DanDB.Buffer.PoolRuns
import DanDB.Storage.Scripts

/-!
# Too many handles

A frame counts its pins in 32 bits.  After 2^32 more handles on its page the count
is what it was, and when one of them goes out of scope the frame may be given to
another page, although the other handles point to it.
-/

namespace DanDB.BufferPool.BufferPoolManager

open DanDB.Core Storage

variable {bpm : BufferPoolManager} {pinned : List FrameId} {pageId : PageId} {f : FrameId}

/-! ## The count of a frame -/

/-- The pool after `n` more pins of a frame that is pinned. -/
def withPins (bpm : BufferPoolManager) (f : FrameId) (n : Nat) : BufferPoolManager :=
  bpm.withFrame f { bpm.frames f with pinCount := (bpm.frames f).pinCount + UInt32.ofNat n }
    bpm.lru.lru

theorem frames_withPins (bpm : BufferPoolManager) (f : FrameId) (n : Nat) :
    (bpm.withPins f n).frames f =
      { bpm.frames f with pinCount := (bpm.frames f).pinCount + UInt32.ofNat n } :=
  Function.update_self ..

theorem page_withPins (bpm : BufferPoolManager) (f : FrameId) (n : Nat) :
    ((bpm.withPins f n).frames f).page = (bpm.frames f).page := by
  rw [frames_withPins]

theorem withFrame_self (bpm : BufferPoolManager) (f : FrameId) :
    bpm.withFrame f (bpm.frames f) bpm.lru.lru = bpm := by
  rw [withFrame, Function.update_eq_self]

/-- As many pins as the count has values leave no trace. -/
theorem withPins_overflow (bpm : BufferPoolManager) (f : FrameId) :
    bpm.withPins f (2 ^ 32) = bpm := by
  rw [withPins, show UInt32.ofNat (2 ^ 32) = 0 from rfl, UInt32.add_zero]
  exact withFrame_self bpm f

theorem getPage_withPins (h : bpm.Inv pinned) (hf : bpm.pageFrames pageId = some f)
    (hpin : f ∈ pinned) (n : Nat) :
    (getPage pageId).run (bpm.withPins f n) = (.ok ⟨f, false⟩, bpm.withPins f (n + 1)) := by
  obtain ⟨hlt, -, -, hvalid⟩ := h.mapped pageId f hf
  have hnotlru : f ∉ bpm.lru.lru := fun hmem =>
    (h.pinCount_eq_zero hlt).mp ((h.evictable f).mp hmem).2.2.1 hpin
  have hget := @getPage_run_cached (bpm.withPins f n) pageId f hvalid hf (h.capacity.symm ▸ hlt)
  have hlru : (bpm.withPins f n).lru.lru.erase f = bpm.lru.lru := List.erase_of_not_mem hnotlru
  rw [hget, frames_withPins, hlru, BufferFrame.pin, withPins, withPins, withFrame, withFrame, withFrame]
  simp only [Function.update_idem, UInt32.ofNat_add, UInt32.add_assoc]
  rfl

/-! ## The only frame of a pool -/

/-- A pool of one frame, which is clean and has the page. -/
structure Single (bpm : BufferPoolManager) (pinned : List FrameId) (pageId : PageId) : Prop where
  inv : bpm.Inv pinned
  capacity : bpm.capacity = 1
  clean : bpm.dirty = fun _ => false
  other : ∀ other, other ≠ pageId → bpm.pageFrames other = none

theorem Single.release (h : bpm.Single [0] pageId) :
    (bpm.release ⟨0, false⟩).Single [] pageId := by
  have hpin : (⟨0, false⟩ : PagePin).frameId ∈ [0] := List.mem_singleton_self 0
  have heffect := release_effect h.inv ⟨0, false⟩ hpin
  refine ⟨heffect.inv, (capacity_release _ _).trans h.capacity, ?_, fun other hother => ?_⟩
  · rw [heffect.dirty, Bool.or_false, Function.update_eq_self, h.clean]
  · rw [release_eq h.inv hpin]
    exact h.other other hother

/-- A frame that counts no pins is not unpinned. -/
theorem Single.release_stale (h : bpm.Single [] pageId) (pin : PagePin) : bpm.release pin = bpm := by
  have hlt : 0 < bpm.capacity := h.capacity ▸ Nat.one_pos
  have hcount := (h.inv.pinCount_eq_zero hlt).mpr List.not_mem_nil
  rw [BufferPoolManager.release]
  rcases hf : bpm.pageFrames (bpm.frames pin.frameId).page.id with _ | f
  · obtain ⟨e, hrun⟩ := findFrame_run_uncached "unpin" hf
    rw [unpinPage, Proc.bind_run_error hrun]
  · obtain rfl := h.inv.frame_eq_zero h.capacity hf
    rw [unpinPage_run_unpinned h.inv hf hcount]

theorem Single.not_exhausted (h : bpm.Single [] pageId) : ¬bpm.Exhausted := by
  rw [exhausted_iff h.inv]
  intro hfull
  have hlt : 0 < bpm.capacity := h.capacity ▸ Nat.one_pos
  obtain hpinned | hdirty := hfull 0 hlt
  · exact absurd ((h.inv.pinCount_eq_zero hlt).mpr List.not_mem_nil) hpinned
  · have hfree : 0 ∉ bpm.freeFrameIds := fun hfree => by
      rw [h.inv.freeEmpty 0 hfree] at hdirty
      cases hdirty
    have hclean := congrFun h.clean (bpm.frames 0).page.id
    rw [dirty_of_pageFrames (h.inv.covered 0 hlt hfree), hdirty] at hclean
    cases hclean

/-- Another page takes the frame. -/
theorem Single.cachePage (h : bpm.Single [] pageId) (page : Page)
    (hvalid : page.id ≠ invalidPageId) (hne : page.id ≠ pageId) :
    ∃ bpm', (cachePage page).run bpm = (.ok ⟨0, false⟩, bpm') ∧ bpm'.Single [0] page.id ∧
      (bpm'.frames 0).page = page := by
  obtain ⟨f, bpm', hrun, hid, content', heffect, -⟩ | ⟨hfull, -⟩ :=
    cachePage_run h.inv page hvalid (h.other _ hne)
  · have hcapacity : bpm'.capacity = 1 := by
      have hsame := leaves_cachePage page bpm
      rw [hrun] at hsame
      exact hsame.trans h.capacity
    have hframe := heffect.inv.pageFrames_pageId (List.mem_singleton_self f)
    rw [hid] at hframe
    obtain rfl := heffect.inv.frame_eq_zero hcapacity hframe
    refine ⟨bpm', hrun, ⟨heffect.inv, hcapacity, heffect.dirty.trans h.clean,
      fun other hother => ?_⟩, Page.ext hid ?_⟩
    · cases hother' : bpm'.pageFrames other with
      | none => rfl
      | some g =>
        obtain rfl := heffect.inv.frame_eq_zero hcapacity hother'
        exact absurd (heffect.inv.pageFrames_inj hother' hframe) hother
    · have hcontent := content_of_pageFrames hframe
      rw [heffect.content, Function.update_self] at hcontent
      exact (Option.some.inj hcontent).symm
  · exact absurd hfull h.not_exhausted

end DanDB.BufferPool.BufferPoolManager

namespace DanDB.Storage

open DanDB.Core BufferPool

/-- What the pool has does not matter to a read of the log or the file. -/
theorem Pager.readCommitted_withPool {pager pager' : Pager} {pageId : PageId}
    {r : Except Status Page} (h : (readCommitted pageId).run pager = (r, pager'))
    (bpm : BufferPoolManager) :
    (readCommitted pageId).run (pager.withPool bpm) = (r, pager'.withPool bpm) := by
  rw [readCommitted, Proc.get_bind_run] at h ⊢
  rw [show (pager.withPool bpm).recoveredPages = pager.recoveredPages from rfl]
  split at h
  · cases h
    rfl
  · rw [onDisk, Proc.zoom_run] at h ⊢
    obtain ⟨hr, hpager⟩ := Prod.mk.inj h
    refine Prod.ext hr ?_
    exact congrArg (fun pager : Pager => pager.withPool bpm) hpager

namespace Session

/-- One step of a session in which any number of handles may point to a page. -/
def Responds (s : Session) (c : Call) (r : Reply) (s' : Session) : Prop :=
  s.respond c = some (r, s')

variable {s : Session} {pager : Pager} {bpm : BufferPoolManager} {handles : List PagePin}
  {pageId : PageId} {data : PageData} {trace : List (Call × Reply)}

/-! ## Calls -/

/-- The page of a handle is got `n` times. -/
theorem Sound.runs_getPage (h : s.Sound) {pin : PagePin} (hpin : pin ∈ s.handles) (n : Nat) :
    Runs Responds s
      (List.replicate n (.getPage (s.pager.pinId pin), .ok (some (s.pager.page pin))))
      ⟨s.pager.withPool (s.pager.bpm.withPins pin.frameId n),
        List.replicate n ⟨pin.frameId, false⟩ ++ s.handles⟩ := by
  have hmem : pin.frameId ∈ s.handles.map PagePin.frameId := List.mem_map_of_mem hpin
  have hframe := h.inv.pool.inv.pageFrames_pageId hmem
  obtain ⟨-, -, -, hvalid⟩ := h.inv.pool.inv.mapped _ _ hframe
  have hne := h.inv.pinId_ne_header hpin
  induction n with
  | zero =>
    rw [BufferPoolManager.withPins, show UInt32.ofNat 0 = 0 from rfl, UInt32.add_zero,
      BufferPoolManager.withFrame_self]
    exact .nil s
  | succ n ih =>
    rw [List.replicate_succ']
    refine ih.append (.cons ?_ (.nil _))
    have hget := BufferPoolManager.getPage_withPins h.inv.pool.inv hframe hmem n
    have hrun : (Pager.getPage (s.pager.pinId pin)).run
        (s.pager.withPool (s.pager.bpm.withPins pin.frameId n)) = (.ok ⟨pin.frameId, false⟩,
          s.pager.withPool (s.pager.bpm.withPins pin.frameId (n + 1))) :=
      @Pager.getPage_run_cached (s.pager.withPool (s.pager.bpm.withPins pin.frameId n)) h.inv.isOpen
        _ hvalid hne _ _ hget
    have hpage : (s.pager.withPool (s.pager.bpm.withPins pin.frameId (n + 1))).page
        ⟨pin.frameId, false⟩ = s.pager.page pin := s.pager.bpm.page_withPins pin.frameId (n + 1)
    rw [Responds, respond, acquire, hrun, ← hpage]
    rfl

/-- After 2^32 more handles on a page the pager is what it was. -/
theorem Sound.runs_overflow (h : s.Sound) {pin : PagePin} (hpin : pin ∈ s.handles) :
    Runs Responds s
      (List.replicate (2 ^ 32) (.getPage (s.pager.pinId pin), .ok (some (s.pager.page pin))))
      ⟨s.pager, List.replicate (2 ^ 32) ⟨pin.frameId, false⟩ ++ s.handles⟩ := by
  have hrun := h.runs_getPage hpin (2 ^ 32)
  rw [BufferPoolManager.withPins_overflow] at hrun
  exact hrun

theorem responds_release (hsingle : bpm.Single [0] pageId) :
    Responds ⟨pager.withPool bpm, ⟨0, false⟩ :: handles⟩ (.release 0) (.ok none)
        ⟨pager.withPool (bpm.release ⟨0, false⟩), handles⟩ ∧
      (bpm.release ⟨0, false⟩).Single [] pageId := ⟨rfl, hsingle.release⟩

/-- Handles on a frame that counts no pins go out of scope without a trace. -/
theorem responds_releases (hsingle : bpm.Single [] pageId) (handles : List PagePin) :
    Runs Responds ⟨pager.withPool bpm, handles⟩
      (List.replicate handles.length (.release 0, .ok none)) ⟨pager.withPool bpm, []⟩ := by
  induction handles with
  | nil => exact .nil _
  | cons pin handles ih =>
    refine .cons ?_ ih
    exact congrArg (fun bpm : BufferPoolManager =>
      some ((.ok none : Reply), (⟨pager.withPool bpm, handles⟩ : Session)))
      (hsingle.release_stale pin)

/-- A page that has no handle loses the only frame to another page. -/
theorem responds_getPage (hopen : pager.closed = false) (hsingle : bpm.Single [] pageId)
    {other : PageId} (hvalid : other ≠ invalidPageId) (hheader : other ≠ headerPageId)
    (hne : other ≠ pageId)
    (hread : (Pager.readCommitted other).run (pager.withPool bpm) =
      (.ok ⟨other, data⟩, pager.withPool bpm)) :
    ∃ bpm', Responds ⟨pager.withPool bpm, handles⟩ (.getPage other) (.ok (some ⟨other, data⟩))
        ⟨pager.withPool bpm', ⟨0, false⟩ :: handles⟩ ∧ bpm'.Single [0] other := by
  have hnone := hsingle.other other hne
  obtain ⟨bpm', hcache, hsingle', hpage⟩ := hsingle.cachePage ⟨other, data⟩ hvalid hne
  have hrun : (Pager.getPage other).run (pager.withPool bpm) =
      (.ok ⟨0, false⟩, pager.withPool bpm') := by
    have hload := @Pager.getPage_run_uncached (pager.withPool bpm) hopen _ hvalid hheader hnone
    rw [hload, Pager.loadPage, Proc.bind_run_ok hread]
    exact Pager.onPool_run hcache
  refine ⟨bpm', ?_, hsingle'⟩
  rw [Responds, respond, acquire, hrun]
  exact congrArg (fun page : Page => some (Except.ok (some page), _)) hpage

/-! ## A lost page -/

/-- The transaction has written a page, which has a handle and the only frame; another
page could have it. -/
structure Lent (lost other : PageId) (data : PageData) (s : Session) : Prop where
  sound : s.Sound
  noFaults : s.NoFaults
  frameCount : s.pager.frameCount = 1
  clean : s.pager.bpm.dirty = fun _ => false
  handles : s.abs.handles = [(lost, true)]
  active : s.abs.flat.status = .active
  dirty : lost ∈ s.abs.flat.dirtyPageIds
  written : s.abs.flat.active.page lost = some data
  stays : s.abs.flat.active.page other = some .zero
  committed : s.abs.flat.committed.page other = some .zero
  ne : other ≠ lost
  valid : other ≠ invalidPageId
  header : other ≠ headerPageId

/-- What happens to the page then: 2^32 more handles, one of which goes out of scope,
and a handle on the other page. -/
def overflow (lost other : PageId) (data : PageData) : List (Call × Reply) :=
  List.replicate (2 ^ 32) (.getPage lost, .ok (some ⟨lost, data⟩)) ++
    [(.release 0, .ok none), (.getPage other, .ok (some ⟨other, .zero⟩)), (.release 0, .ok none)]

section Lent

variable {lost other : PageId}

theorem Lent.named (h : s.Lent lost other data) : lost ≠ invalidPageId ∧ lost ≠ headerPageId := by
  obtain ⟨pin, hpins, hpin⟩ := List.map_eq_singleton_iff.mp h.handles
  obtain rfl : s.pager.pinId pin = lost := congrArg Prod.fst hpin
  have hmem : pin ∈ s.handles := hpins ▸ List.mem_singleton_self pin
  have hframe := h.sound.inv.pool.inv.pageFrames_pageId (List.mem_map_of_mem hmem)
  exact ⟨(h.sound.inv.pool.inv.mapped _ _ hframe).2.2.2, h.sound.inv.pinId_ne_header hmem⟩

/-- The other page has the frame, and the other handles still point to it. -/
theorem Lent.overflows (h : s.Lent lost other data) : ∃ bpm handles,
    Runs Responds s (overflow lost other data) ⟨s.pager.withPool bpm, handles⟩ ∧
    bpm.Single [] other := by
  obtain ⟨pin, hpins, hpin⟩ := List.map_eq_singleton_iff.mp h.handles
  have hid : s.pager.pinId pin = lost := congrArg Prod.fst hpin
  have hmem : pin ∈ s.handles := hpins ▸ List.mem_singleton_self pin
  have hinv := h.sound.inv
  have hpool := hinv.pool.inv
  have hframe := hpool.pageFrames_pageId (List.mem_map_of_mem hmem)
  have hzero := hpool.frame_eq_zero h.frameCount hframe
  rw [hpins, List.map_singleton, hzero] at hpool
  have hframe' : s.pager.bpm.pageFrames lost = some 0 := by
    rw [← hzero, ← hid]
    exact hframe
  have hsingle : s.pager.bpm.Single [0] lost := by
    refine ⟨hpool, h.frameCount, h.clean, fun other hother => ?_⟩
    cases hother' : s.pager.bpm.pageFrames other with
    | none => rfl
    | some g =>
      obtain rfl := hpool.frame_eq_zero h.frameCount hother'
      exact absurd (hpool.pageFrames_inj hother' hframe') hother
  have hpage : s.pager.page pin = ⟨lost, data⟩ := by
    obtain ⟨-, -, hactive, hpage⟩ := page_of_pin hinv hmem hid
    rw [hpage, Option.some.inj (hactive.symm.trans h.written)]
  have hrun := h.sound.runs_overflow hmem
  rw [hid, hpage, hzero] at hrun
  obtain ⟨handles, hhandles⟩ : ∃ handles, List.replicate (2 ^ 32) ⟨0, false⟩ ++ s.handles =
      (⟨0, false⟩ : PagePin) :: handles := ⟨List.replicate (2 ^ 32 - 1) ⟨0, false⟩ ++ s.handles, rfl⟩
  rw [hhandles] at hrun
  obtain ⟨hrelease, hsingle₁⟩ := @responds_release s.pager _ handles _ hsingle
  have hread := Pager.readCommitted_run hinv h.noFaults.1 h.valid h.committed
  obtain ⟨bpm₂, hget, hsingle₂⟩ := @responds_getPage s.pager _ handles _ _ hinv.isOpen hsingle₁
    other h.valid h.header h.ne (Pager.readCommitted_withPool hread _)
  obtain ⟨hrelease', hsingle₃⟩ := @responds_release s.pager _ handles _ hsingle₂
  exact ⟨_, handles, hrun.append (.cons hrelease (.cons hget (.cons hrelease' (.nil _)))), hsingle₃⟩

/-- The flat array shows the page as it was written. -/
theorem Lent.flat_overflows (h : s.Lent lost other data) : ∃ t t',
    Runs FlatSession.Step s.abs (overflow lost other data) t ∧
    t.call (.getPage lost) = some (.ok (some ⟨lost, data⟩), t') := by
  have hcall {pageId : PageId} {data : PageData} (hvalid : pageId ≠ invalidPageId)
      (hne : pageId ≠ headerPageId) (hpage : s.abs.flat.active.page pageId = some data)
      (handles : List (PageId × Bool)) :
      (⟨s.abs.flat, handles⟩ : FlatSession).call (.getPage pageId) =
        some (.ok (some ⟨pageId, data⟩), ⟨s.abs.flat, (pageId, false) :: handles⟩) := by
    rw [FlatSession.call, flat_getPage_some hvalid hne hpage]
  obtain ⟨hvalid, hheader⟩ := h.named
  have hget := hcall hvalid hheader h.written
  have hother := hcall h.valid h.header h.stays
  have hruns (n : Nat) : Runs FlatSession.Step s.abs
      (List.replicate n (.getPage lost, .ok (some ⟨lost, data⟩)))
      ⟨s.abs.flat, List.replicate n (lost, false) ++ s.abs.handles⟩ := by
    induction n with
    | zero => exact .nil _
    | succ n ih =>
      rw [List.replicate_succ']
      exact ih.append (.cons (.answer (hget _)) (.nil _))
  have hrun := hruns (2 ^ 32)
  obtain ⟨handles, hhandles⟩ : ∃ handles, List.replicate (2 ^ 32) (lost, false) ++ s.abs.handles =
      ((lost, false) : PageId × Bool) :: handles :=
    ⟨List.replicate (2 ^ 32 - 1) (lost, false) ++ s.abs.handles, rfl⟩
  rw [hhandles] at hrun
  exact ⟨⟨s.abs.flat, handles⟩, _, hrun.append (.cons (.answer rfl) (.cons (.answer (hother _))
    (.cons (.answer rfl) (.nil _)))), hget _⟩

end Lent

theorem Sound.dirty_mutablePage (h : s.Sound) {s' : Session} {handle : Nat} {r : Reply}
    (hstep : s.Step (.mutablePage handle) r s') : s'.pager.bpm.dirty = s.pager.bpm.dirty := by
  obtain ⟨pin, hpin, hroom, heq⟩ := call_mutablePage hstep
  have hperm := getElem?_perm hpin
  have hmutable := Pager.mutablePage_yields (h.inv.perm hperm) (handlesOf_perm hperm _ ▸ hroom)
  unfold Proc.Yields at hmutable
  rw [makeMutable] at heq
  rcases hrun : (Pager.mutablePage pin).run s.pager with ⟨_ | _, pager⟩ <;>
    rw [hrun] at hmutable heq <;> cases heq <;> exact hmutable.2.2.2.1

theorem Sound.dirty_store (h : s.Sound) {s' : Session} {handle : Nat} {r : Reply}
    (hstep : s.Step (.store handle data) r s') : s'.pager.bpm.dirty = s.pager.bpm.dirty := by
  obtain ⟨pin, hpin, heq⟩ := Option.bind_eq_some_iff.mp hstep
  split at heq
  · cases heq
    exact (BufferPoolManager.store_effect h.inv.pool.inv pin
      (List.mem_map_of_mem (List.mem_of_getElem? hpin)) data).dirty
  · cases heq

theorem Sound.dirty_newPage (h : s.Sound) {s' : Session} {r : Reply}
    (hactive : s.pager.transactionState.status = .active) (hstep : s.Step .newPage r s') :
    s'.pager.bpm.dirty = s.pager.bpm.dirty := by
  rw [Step, call, acquire] at hstep
  obtain ⟨pin, pager, hrun, -, -, hdirty, -⟩ | ⟨-, hrun⟩ | ⟨-, hrun⟩ := Pager.newPage_run h.inv hactive <;>
    rw [hrun] at hstep <;> cases hstep
  · exact hdirty
  all_goals rfl

/-- No frame is dirty where the transaction has changed nothing. -/
theorem Sound.dirty_of_unchanged (h : s.Sound) (hdirty : s.abs.flat.dirtyPageIds = []) :
    s.pager.bpm.dirty = fun _ => false := by
  funext pageId
  refine Bool.eq_false_iff.mpr fun hframe => ?_
  have hmem : pageId ∈ s.abs.flat.dirtyPageIds := h.inv.pool.frameDirty pageId hframe
  rw [hdirty] at hmem
  cases hmem

/-- A new database of two pages, the first of which a transaction writes. -/
theorem exists_lent (data : PageData) : ∃ pager trace s,
    Pager.createEmpty "db" ⟨none, none⟩ 1 7 = .ok pager ∧ Runs Step (start pager) trace s ∧
    (∀ entry ∈ trace, entry.1.Quiet) ∧ NeverExhausted trace ∧ s.Lent 1 2 data ∧
    s.abs.flat.committed.page 1 = some .zero := by
  obtain ⟨pager, s₀, hcreate, h₀⟩ := exists_played 1 (by decide) (by decide)
    (show FlatSession.play 1 _ [.beginTransaction, .newPage, .release 0,
      .commitTransaction .insertion, .beginTransaction, .newPage, .release 0,
      .commitTransaction .insertion, .beginTransaction, .getPage 1] = some (_, _) from rfl)
  have hframes := h₀.frameCount.trans (Pager.frameCount_of_createEmpty hcreate)
  have hclean := h₀.sound.dirty_of_unchanged (by rw [h₀.abs]; rfl)
  obtain ⟨s₁, hmutable, habs₁⟩ := h₀.sound.exists_answer h₀.noFaults (c := .mutablePage 0)
    (show s₀.abs.handles.length ≤ _ by rw [h₀.abs, hframes]; decide)
    (by rw [hframes]; decide) (by rw [h₀.abs]; rfl)
  have hsound₁ := (h₀.sound.step hmutable).1
  have hquiet : (Call.mutablePage 0).Quiet := trivial
  have hquiet' : (Call.store 0 data).Quiet := trivial
  have hno₁ := h₀.sound.noFaults h₀.noFaults hquiet hmutable
  have hframes₁ := hmutable.frameCount.trans hframes
  obtain ⟨s, hstore, habs⟩ := hsound₁.exists_answer hno₁ (c := .store 0 data) trivial
    (by rw [hframes₁]; decide) (by rw [habs₁]; rfl)
  have hclean' := (hsound₁.dirty_store hstore).trans ((h₀.sound.dirty_mutablePage hmutable).trans hclean)
  refine ⟨pager, _, s, hcreate, h₀.runs.append (.cons hmutable (.cons hstore (.nil s))),
    fun entry hmem => ?_, fun entry hmem => ?_,
    ⟨(hsound₁.step hstore).1, hsound₁.noFaults hno₁ hquiet' hstore,
      hstore.frameCount.trans hframes₁, hclean', ?_, ?_, ?_, ?_, ?_, ?_, by decide, by decide,
      by decide⟩, ?_⟩
  · obtain hmem | hmem := List.mem_append.mp hmem
    · exact h₀.quiet entry hmem
    · obtain rfl | rfl : entry = _ ∨ entry = _ := by simpa using hmem
      · exact hquiet
      · exact hquiet'
  · obtain hmem | hmem := List.mem_append.mp hmem
    · fin_cases hmem <;> rintro ⟨⟩
    · obtain rfl | rfl : entry = _ ∨ entry = _ := by simpa using hmem
      · rintro ⟨⟩
      · rintro ⟨⟩
  all_goals rw [habs]
  · rfl
  · rfl
  · exact List.mem_singleton_self 1
  all_goals rfl

/-- A new database of one page, to which a transaction adds another. -/
theorem exists_lent_new : ∃ pager trace s, Pager.createEmpty "db" ⟨none, none⟩ 1 7 = .ok pager ∧
    Runs Step (start pager) trace s ∧ s.Lent 2 1 .zero ∧ s.abs.flat.committed.page 2 = none ∧
    s.abs.flat.active.header.pageCount = 3 := by
  obtain ⟨pager, s₀, hcreate, h₀⟩ := exists_played 1 (by decide) (by decide)
    (show FlatSession.play 1 _ [.beginTransaction, .newPage, .release 0,
      .commitTransaction .insertion, .beginTransaction] = some (_, _) from rfl)
  have hframes := h₀.frameCount.trans (Pager.frameCount_of_createEmpty hcreate)
  have hclean := h₀.sound.dirty_of_unchanged (by rw [h₀.abs]; rfl)
  have hactive : s₀.abs.flat.status = .active := by rw [h₀.abs]; rfl
  obtain ⟨s, hnew, habs⟩ := h₀.sound.exists_answer h₀.noFaults (c := .newPage)
    (by rw [h₀.abs, hframes]; decide) (by rw [hframes]; decide) (by rw [h₀.abs]; rfl)
  have hquiet : Call.newPage.Quiet := trivial
  refine ⟨pager, _, s, hcreate, h₀.runs.append (.cons hnew (.nil s)),
    ⟨(h₀.sound.step hnew).1, h₀.sound.noFaults h₀.noFaults hquiet hnew, hnew.frameCount.trans hframes,
      (h₀.sound.dirty_newPage hactive hnew).trans hclean, ?_, ?_, ?_, ?_, ?_, ?_, by decide, by decide,
      by decide⟩, ?_, ?_⟩
  all_goals rw [habs]
  · rfl
  · rfl
  · exact List.mem_cons_self
  all_goals rfl

theorem responds_of_runs {s' : Session} (h : Runs Step s trace s') : Runs Responds s trace s' := by
  obtain ⟨_, hresponds, rfl⟩ := h.simulates (fun s s' => s' = s)
    (fun c r s s' _ _ hstep heq => ⟨s', heq ▸ respond_of_call hstep, rfl⟩) rfl
  exact hresponds

/-- A program that has too many handles on a page it has written: the page has left
the pool, and what is read of it next is not what the flat array shows. -/
structure Lost (data : PageData) (pager : Pager) (trace : List (Call × Reply)) (s : Session)
    (t : FlatSession) : Prop where
  create : Pager.createEmpty "db" ⟨none, none⟩ 1 7 = .ok pager
  runs : Runs Responds (start pager) trace s
  quiet : ∀ entry ∈ trace, entry.1.Quiet
  fits : NeverExhausted trace
  active : s.pager.transactionState.status = .active
  dirty : 1 ∈ s.pager.transactionState.dirtyPageIds
  uncached : s.pager.bpm.pageFrames 1 = none
  shows : ∃ s', s.Responds (.getPage 1) (.ok (some ⟨1, .zero⟩)) s'
  flat : Runs FlatSession.Step ⟨.settled (Pager.emptyView 7), []⟩ trace t
  flatShows : ∃ t', t.call (.getPage 1) = some (.ok (some ⟨1, data⟩), t')

theorem exists_lost (data : PageData) : ∃ pager trace s t, Lost data pager trace s t := by
  obtain ⟨pager, trace, s, hcreate, hrun, hquiet, hfits, hlent, hcommitted⟩ := exists_lent data
  obtain ⟨bpm, handles, hrun', hsingle⟩ := hlent.overflows
  obtain ⟨hvalid, hheader⟩ := hlent.named
  have hread := Pager.readCommitted_run hlent.sound.inv hlent.noFaults.1 hvalid hcommitted
  obtain ⟨_, hget, -⟩ := @responds_getPage s.pager _ handles _ _ hlent.sound.inv.isOpen hsingle 1
    hvalid hheader (by decide) (Pager.readCommitted_withPool hread _)
  obtain ⟨t, t', hflat', hget'⟩ := hlent.flat_overflows
  obtain ⟨hsound, hno, habs⟩ := (Starts.create hcreate).sound
  obtain ⟨hflat, -, -⟩ := flat_runs hrun hsound hno hquiet
  rw [habs] at hflat
  have hentry {entry : Call × Reply} (hmem : entry ∈ overflow 1 2 data) :
      entry.1.Quiet ∧ ∃ page, entry.2 = .ok page := by
    obtain hmem | hmem := List.mem_append.mp hmem
    · rw [List.eq_of_mem_replicate hmem]
      exact ⟨trivial, _, rfl⟩
    · fin_cases hmem <;> exact ⟨trivial, _, rfl⟩
  refine ⟨pager, trace ++ overflow 1 2 data, _, t, hcreate, (responds_of_runs hrun).append hrun',
    fun entry hmem => ?_, fun entry hmem => ?_, hlent.active, hlent.dirty,
    hsingle.other 1 (by decide), ⟨_, hget⟩, hflat.append hflat', t', hget'⟩
  · obtain hmem | hmem := List.mem_append.mp hmem
    · exact hquiet entry hmem
    · exact (hentry hmem).1
  · obtain hmem | hmem := List.mem_append.mp hmem
    · exact hfits entry hmem
    · obtain ⟨-, page, hr⟩ := hentry hmem
      rw [hr]
      rintro ⟨⟩

end Session

end DanDB.Storage
