import DanDB.Storage.PageReads
import DanDB.Storage.Reachable
import DanDB.Storage.Scripts

/-!
# Pages in the pool

A call for a page that is in the pool needs no frame and no file, so it succeeds.  A
page that a transaction has written stays in the pool until it ends.
-/

namespace DanDB.Storage

open DanDB.Core BufferPool

theorem Pager.getPage_resident {pager : Pager} {live : List PagePin} (h : pager.Inv live)
    {pageId : PageId} {f : FrameId} (hvalid : pageId ≠ invalidPageId) (hne : pageId ≠ headerPageId)
    (hf : pager.bpm.pageFrames pageId = some f)
    (hroom : (pager.pinned live).count pageId < maxPins) :
    ∃ pin pager', (Pager.getPage pageId).run pager = (.ok pin, pager') := by
  obtain ⟨bpm, hget, -⟩ := BufferPoolManager.getPage_cached h.pool.inv hf
    (h.count_frame hf ▸ hroom)
  exact ⟨⟨f, false⟩, pager.withPool bpm, getPage_run_cached h.isOpen hvalid hne hget⟩

namespace Session

variable {s : Session} {pageId : PageId}

/-- A call that succeeds does what the flat array does. -/
theorem Sound.answered_of_ok (h : s.Sound) {s' : Session} {c : Call} {page : Option Page}
    (hcall : s.call c = some (.ok page, s')) : s.abs.call c = some (.ok page, s'.abs) := by
  obtain ⟨-, hanswer | ⟨_, hr, -⟩ | ⟨_, _, -, hr, -⟩⟩ := h.step hcall
  · exact hanswer
  · cases hr
  · cases hr

/-- A page in the pool is shown, and the session has one more handle. -/
theorem Sound.getPage_resident (h : s.Sound) {f : FrameId} {data : PageData}
    (hvalid : pageId ≠ invalidPageId) (hne : pageId ≠ headerPageId)
    (hf : s.pager.bpm.pageFrames pageId = some f)
    (hdata : s.abs.flat.active.page pageId = some data) (hroom : s.handlesOf pageId < maxHandles) :
    ∃ s', s.call (.getPage pageId) = some (.ok (some ⟨pageId, data⟩), s') ∧ s'.Sound ∧
      s'.abs = ⟨s.abs.flat, (pageId, false) :: s.abs.handles⟩ := by
  obtain ⟨pin, pager', hrun⟩ := Pager.getPage_resident h.inv hvalid hne hf (hroom.trans (by decide))
  obtain ⟨page, s', hcall⟩ : ∃ page s', s.call (.getPage pageId) = some (.ok (some page), s') := by
    rw [call, if_pos hroom, acquire, hrun]
    exact ⟨_, _, rfl⟩
  have hanswer := h.answered_of_ok hcall
  rw [FlatSession.call, flat_getPage_some hvalid hne hdata] at hanswer
  obtain ⟨hr, habs⟩ := Prod.mk.inj (Option.some.inj hanswer)
  exact ⟨s', hr ▸ hcall, (h.step hcall).1, habs.symm⟩

/-- The first handle goes out of scope. -/
theorem Sound.release_first (h : s.Sound) {handle : PageId × Bool}
    {handles : List (PageId × Bool)} (hhandles : s.abs.handles = handle :: handles) :
    ∃ s', s.call (.release 0) = some (.ok none, s') ∧ s'.Sound ∧
      s'.abs = ⟨s.abs.flat, handles⟩ := by
  obtain ⟨pin, rest, hpins⟩ : ∃ pin rest, s.handles = pin :: rest := by
    refine List.exists_cons_of_ne_nil fun hnil => ?_
    rw [abs, hnil] at hhandles
    cases hhandles
  obtain ⟨s', hcall⟩ : ∃ s', s.call (.release 0) = some (.ok none, s') := by
    rw [call, hpins]
    exact ⟨_, rfl⟩
  have hanswer := h.answered_of_ok hcall
  rw [FlatSession.call, hhandles] at hanswer
  obtain ⟨-, habs⟩ := Prod.mk.inj (Option.some.inj hanswer)
  exact ⟨s', hcall, (h.step hcall).1, habs.symm⟩

/-- Without handles, the pages that the transaction has written are in the pool. -/
theorem Sound.resident_of_dirty (h : s.Sound) (hhandles : s.handles = [])
    (hne : pageId ≠ headerPageId) (hmem : pageId ∈ s.abs.flat.dirtyPageIds) :
    ∃ f, s.pager.bpm.pageFrames pageId = some f := by
  have hinv := h.inv
  rw [hhandles] at hinv
  obtain hdirty | ⟨pin, hpin, -⟩ := hinv.pool.held pageId hmem hne
  · rw [BufferPoolManager.dirty] at hdirty
    split at hdirty
    · cases hdirty
    · exact ⟨_, ‹_›⟩
  · cases hpin

/-! ## Handles on a page -/

theorem FlatSession.handlesOf_call {s t : FlatSession} {c : Call} {r : Reply}
    (h : s.call c = some (r, t)) (pageId : PageId) : t.handlesOf pageId ≤ s.handlesOf pageId ∨
      t.handlesOf pageId = s.handlesOf pageId + 1 ∧
        (c = .getPage pageId ∨ c = .newPage ∧ pageId = s.flat.active.header.pageCount) := by
  have hcons (pin : PageId × Bool) (flat : FlatPager) :
      (⟨flat, pin :: s.handles⟩ : FlatSession).handlesOf pageId ≤ s.handlesOf pageId ∨
        (⟨flat, pin :: s.handles⟩ : FlatSession).handlesOf pageId = s.handlesOf pageId + 1 ∧
          pin.1 = pageId := by
    by_cases hpin : pin.1 = pageId
    · refine .inr ⟨?_, hpin⟩
      rw [FlatSession.handlesOf, FlatSession.pinned, List.map_cons, hpin, List.count_cons_self]
      rfl
    · refine .inl (Nat.le_of_eq ?_)
      rw [FlatSession.handlesOf, FlatSession.pinned, List.map_cons, List.count_cons_of_ne hpin]
      rfl
  cases c with
  | getPage pageId' =>
    rw [FlatSession.call] at h
    rcases hrun : (FlatPager.getPage pageId').run s.flat with ⟨e | data, flat⟩ <;>
      rw [hrun] at h <;> cases h
    · exact .inl (Nat.le_refl _)
    · exact (hcons (pageId', false) flat).imp_right fun hadded =>
        ⟨hadded.1, .inl (congrArg Call.getPage hadded.2)⟩
  | newPage =>
    rw [FlatSession.call] at h
    rcases hrun : FlatPager.newPage.run s.flat with ⟨e | newPageId, flat⟩ <;>
      rw [hrun] at h <;> cases h
    · exact .inl (Nat.le_refl _)
    · refine (hcons (newPageId, true) flat).imp_right fun hadded =>
        ⟨hadded.1, .inr ⟨rfl, hadded.2.symm.trans ?_⟩⟩
      exact FlatPager.newPage_id hrun
  | mutablePage handle =>
    obtain ⟨pin, hpin, h⟩ := Option.map_eq_some_iff.mp h
    rcases hrun : (FlatPager.markDirty pin.1).run s.flat with ⟨e | _, flat⟩ <;>
      rw [hrun] at h <;> cases h
    · exact .inl (Nat.le_refl _)
    · refine .inl (Nat.le_of_eq ?_)
      rw [FlatSession.handlesOf, FlatSession.pinned, List.map_set]
      have hsame : (s.handles.map Prod.fst).set handle pin.1 = s.handles.map Prod.fst := by
        obtain ⟨hlt, rfl⟩ := List.getElem?_eq_some_iff.mp hpin
        rw [← List.getElem_map Prod.fst (h := by rwa [List.length_map]), List.set_getElem_self]
      rw [hsame]
      rfl
  | release handle =>
    obtain ⟨pin, -, h⟩ := Option.map_eq_some_iff.mp h
    cases h
    exact .inl (((List.eraseIdx_sublist ..).map _).count_le _)
  | read handle =>
    obtain ⟨pin, -, h⟩ := Option.map_eq_some_iff.mp h
    cases h
    exact .inl (Nat.le_refl _)
  | store handle data =>
    obtain ⟨pin, -, h⟩ := Option.bind_eq_some_iff.mp h
    split at h
    · cases h
      exact .inl (Nat.le_refl _)
    · cases h
  | checkpoint order =>
    rw [FlatSession.call] at h
    split at h
    · cases h
    · cases h
      exact .inl (Nat.le_refl _)
  | _ =>
    cases h
    exact .inl (Nat.le_refl _)

/-- A page that does not exist yet has no handle. -/
theorem Sound.handlesOf_pageCount (h : s.Sound) :
    s.handlesOf s.abs.flat.active.header.pageCount = 0 := by
  refine List.count_eq_zero.mpr fun hmem => ?_
  obtain ⟨pin, hpin, hid⟩ := List.mem_map.mp hmem
  have hdata := h.inv.activePage_pin hpin
  exact Nat.lt_irrefl _ (hid ▸ ((h.inv.activePage_isSome _).mp ⟨_, hdata⟩).2)

/-- No call gives a page more handles than its frame can count. -/
theorem Sound.few_step (h : s.Sound) {s' : Session} {c : Call} {r : Reply}
    (hstep : s.Step c r s') (hfew : s.Few) : s'.Few := by
  intro pageId
  rw [← handlesOf_abs]
  obtain ⟨-, hanswer | ⟨_, -, habs, -⟩ | ⟨_, _, -, -, -, habs⟩⟩ := h.step hstep
  · obtain hle | ⟨hcount, rfl | ⟨rfl, rfl⟩⟩ := FlatSession.handlesOf_call hanswer pageId
    · exact hle.trans ((handlesOf_abs s pageId).trans_le (hfew pageId))
    · rw [hcount, handlesOf_abs]
      exact (call_getPage hstep).1
    · rw [hcount, handlesOf_abs, h.handlesOf_pageCount]
      decide
  · rw [habs, handlesOf_abs]
    exact hfew pageId
  · rw [habs]
    exact (handlesOf_abs s pageId).trans_le (hfew pageId)

theorem few_start (pager : Pager) : (start pager).Few := fun _ => Nat.zero_le _

theorem Reachable.few (h : Reachable s) : s.Few := by
  induction h with
  | create | interrupted | reopen => exact few_start _
  | step h hstep ih => exact h.sound.few_step hstep ih

end Session

end DanDB.Storage
