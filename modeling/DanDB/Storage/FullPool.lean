import DanDB.Storage.Pressure

/-!
# A full pool

A database with one page, opened with a pool of one frame.  A new page takes the
frame, and from then on the first page cannot be had.
-/

namespace DanDB.Storage

open DanDB.Core BufferPool

namespace Session

/-- The database with one page was opened with one frame, and a new page has it. -/
structure Crowded (data : PageData) (t : Session) : Prop where
  reachable : ∃ s pager trace, Reachable s ∧
    Pager.open .insertion "db" s.pager.files 1 = .ok pager ∧ Runs Step (start pager) trace t
  calm : t.Calm
  lacks : t.Lacks 1
  pageCount : 1 < t.abs.flat.active.header.pageCount
  page : t.abs.flat.active.page 1 = some data

variable {s t : Session} {data : PageData}

theorem NoFaults.calm (h : s.NoFaults) (hsound : s.Sound) : s.Calm := by
  refine ⟨hsound, fun fault hmem => ?_⟩
  rw [h.1] at hmem
  cases hmem

/-- The page of the only handle has the only frame. -/
theorem Sound.lacks_of_handle (h : t.Sound) (hno : t.NoFaults) (hcount : t.pager.frameCount = 1)
    {pageId other : PageId} {isDirty : Bool} (hhandles : t.abs.handles = [(other, isDirty)])
    (hother : pageId ≠ other) (hvalid : pageId ≠ invalidPageId) (hne : pageId ≠ headerPageId)
    (hpage : t.abs.flat.committed.page pageId = some data) : t.Lacks pageId := by
  obtain ⟨pin, hpins, hpin⟩ := List.map_eq_singleton_iff.mp hhandles
  have hid : t.pager.pinId pin = other := congrArg Prod.fst hpin
  have hmem : pin.frameId ∈ t.handles.map PagePin.frameId := by
    rw [hpins]
    exact List.mem_singleton_self _
  have hframe := h.inv.pool.inv.pageFrames_pageId hmem
  have hzero := h.inv.pool.inv.frame_eq_zero hcount hframe
  refine ⟨⟨hvalid, hne⟩, ?_, fun f hf => .inl fun hunpinned => ?_,
    _, _, Pager.readCommitted_run h.inv hno.1 hvalid hpage⟩
  · cases hcached : t.pager.bpm.pageFrames pageId with
    | none => rfl
    | some f =>
      obtain rfl := h.inv.pool.inv.frame_eq_zero hcount hcached
      have hsame := (h.inv.pool.inv.mapped pageId 0 hcached).2.2.1
      rw [← hzero] at hsame
      exact absurd (hsame.symm.trans hid) hother
  · rw [h.inv.pool.inv.pinCount_eq_zero hf] at hunpinned
    rw [show t.pager.bpm.capacity = 1 from hcount] at hf
    obtain rfl := Nat.lt_one_iff.mp hf
    exact hunpinned (hzero ▸ hmem)

theorem exists_crowded (data : PageData) : ∃ t : Session, t.Crowded data := by
  obtain ⟨pager₀, s, hcreate, hs⟩ := exists_played 7 (by decide) (by decide)
    (show FlatSession.play 7 _ [.beginTransaction, .newPage, .store 0 data, .release 0,
      .commitTransaction .insertion] = some (_, _) from rfl)
  obtain ⟨pager, t, hopen, -, ht⟩ := hs.reopen (.create hcreate) (by rintro ⟨⟩) 1 (by decide)
    (by decide) (show FlatSession.play 1 _ [.beginTransaction, .newPage] = some (_, _) from rfl)
  have hcount := ht.frameCount.trans (Pager.frameCount_of_open hopen)
  refine ⟨t, ⟨s, pager, _, (Reachable.create hcreate).runs hs.runs, hopen, ht.runs⟩,
    ht.noFaults.calm ht.sound, ?_, ?_, ?_⟩
  · exact ht.sound.lacks_of_handle ht.noFaults hcount (congrArg FlatSession.handles ht.abs)
      (show (1 : PageId) ≠ 2 by decide) (by decide) (by decide)
      (congrArg (fun s : FlatSession => s.flat.committed.page 1) ht.abs)
  · rw [ht.abs]
    exact (by decide : (1 : PageId) < 3)
  · rw [ht.abs]
    rfl

end Session

end DanDB.Storage
