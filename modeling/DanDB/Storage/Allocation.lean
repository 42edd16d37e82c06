import DanDB.Storage.Overflow
import DanDB.Storage.Reachable

/-!
# The allocation of pages

The ids of the pages of a database are those from 1 up to its page count.  Each
of them can be read, no other can, and the next page gets the id behind them,
which no part of the pager has ever kept a page for.
-/

namespace DanDB.Storage

open DanDB.Core Platform Wal BufferPool

namespace Pager.Inv

variable {pager : Pager} {live : List PagePin}

/-- Where a page of the database can be found. -/
theorem stored (h : pager.Inv live) {pageId : PageId} (hne : pageId ≠ headerPageId)
    (hlt : pageId.toNat < pager.dbHeader.pageCount.toNat) :
    (∃ data, pager.bpm.content pageId = some data) ∨ pageId ∈ pager.recoveredPages ∨
      pageId.toNat < pager.filePages := by
  obtain ⟨data, hdata⟩ := (h.activePage_isSome pageId).mpr ⟨hne, hlt⟩
  rw [activePage] at hdata
  rcases hcontent : pager.bpm.content pageId with _ | cached
  · rw [hcontent, Option.none_or] at hdata
    obtain ⟨-, hcommitted⟩ := (committedPage_isSome h.file pageId).mp ⟨data, hdata⟩
    exact .inr (h.file.stored pageId hne hcommitted)
  · exact .inl ⟨cached, rfl⟩

theorem activePage_eq_none (h : pager.Inv live) {pageId : PageId}
    (hge : pager.dbHeader.pageCount.toNat ≤ pageId.toNat) : pager.activePage pageId = none := by
  rcases hdata : pager.activePage pageId with _ | data
  · rfl
  · exact absurd ((h.activePage_isSome pageId).mp ⟨data, hdata⟩).2 (Nat.not_lt.mpr hge)

/-- No part of the pager keeps a page with an id that was not issued. -/
theorem not_stored (h : pager.Inv live) {pageId : PageId}
    (hge : pager.dbHeader.pageCount.toNat ≤ pageId.toNat) :
    pager.bpm.content pageId = none ∧ pageId ∉ pager.recoveredPages ∧
      pager.filePages ≤ pageId.toNat ∧ pager.committedPage pageId = none := by
  have hcount := h.transaction.pageCount
  have hcommitted := committedPage_eq_none h.file (hcount.trans hge)
  refine ⟨?_, fun hmem => ?_, (h.file.filePages_le.trans hcount).trans hge, hcommitted⟩
  · have hactive := h.activePage_eq_none hge
    rw [activePage, hcommitted, Option.or_none] at hactive
    exact hactive
  · obtain ⟨page, hpage⟩ := Option.isSome_iff_exists.mp (AList.lookup_isSome.mpr hmem)
    obtain ⟨-, -, hlt⟩ := h.file.recovered pageId page hpage
    omega

end Pager.Inv

namespace Session

variable {s s' : Session} {r : Reply}

/-- A page of the database is read, unless the pool has no frame for it or a
file fails. -/
theorem Sound.getPage_of_lt (h : s.Sound) {pageId : PageId} (hne : pageId ≠ headerPageId)
    (hlt : pageId.toNat < s.pager.dbHeader.pageCount.toNat)
    (hstep : s.Step (.getPage pageId) r s') :
    (∃ data, s.pager.activePage pageId = some data ∧ r = .ok (some ⟨pageId, data⟩)) ∨
      s.pager.bpm.Exhausted ∧ r = .error BufferPoolManager.exhaustedStatus ∨
      ¬s.NoFaults ∧ ∃ e, r = .error e := by
  obtain ⟨data, hdata⟩ := (h.inv.activePage_isSome pageId).mpr ⟨hne, hlt⟩
  obtain ⟨-, hanswer | ⟨e, rfl, -, hwhy⟩ | ⟨_, _, hc, -⟩⟩ := h.step hstep
  · have hflat := flat_getPage_some (Pager.valid_of_lt hlt) hne
      (show s.abs.flat.active.page pageId = some data from hdata)
    rw [FlatSession.call, hflat] at hanswer
    obtain ⟨hr, -⟩ := Prod.mk.inj (Option.some.inj hanswer)
    exact .inl ⟨data, hdata, hr.symm⟩
  · cases hwhy with
    | getPage _ hfull => exact .inr (.inl ⟨hfull, rfl⟩)
    | fault _ _ hfault => exact .inr (.inr ⟨hfault, e, rfl⟩)
  · cases hc

/-- An id that was not issued is not read. -/
theorem Sound.getPage_of_ge (h : s.Sound) {pageId : PageId}
    (hge : s.pager.dbHeader.pageCount.toNat ≤ pageId.toNat)
    (hstep : s.Step (.getPage pageId) r s') : ∃ e, r = .error e := by
  obtain ⟨-, hanswer | ⟨e, rfl, -⟩ | ⟨_, e, -, rfl, -⟩⟩ := h.step hstep
  · have hnone : s.abs.flat.active.page pageId = none := h.inv.activePage_eq_none hge
    rw [FlatSession.call, FlatPager.getPage, Proc.get_bind_run] at hanswer
    by_cases hbad : pageId = invalidPageId ∨ pageId = headerPageId
    · rw [Proc.bind_run_error (Proc.failIf_run_of s.abs.flat hbad _)] at hanswer
      exact ⟨_, (Prod.mk.inj (Option.some.inj hanswer)).1.symm⟩
    · rw [Proc.bind_run_ok (Proc.failIf_run_of_not s.abs.flat hbad _), hnone] at hanswer
      exact ⟨_, (Prod.mk.inj (Option.some.inj hanswer)).1.symm⟩
  · exact ⟨e, rfl⟩
  · exact ⟨e, rfl⟩

/-- The next page of an active transaction. -/
structure Issued (s : Session) (r : Reply) (s' : Session) : Prop where
  /-- It is a page of zeros, and its id is the page count. -/
  reply : r = .ok (some (.ofId s.pager.dbHeader.pageCount))
  page : s'.pager.activePage s.pager.dbHeader.pageCount = some .zero
  pageCount : s'.pager.dbHeader.pageCount.toNat = s.pager.dbHeader.pageCount.toNat + 1

theorem Sound.newPage_cases (h : s.Sound) (hactive : s.pager.transactionState.status = .active)
    (hstep : s.Step .newPage r s') :
    s.Issued r s' ∨
      s.pager.bpm.Exhausted ∧ r = .error BufferPoolManager.exhaustedStatus ∨
      s.pager.dbHeader.pageCount = invalidPageId ∧
        r = .error (.InvalidArgument "Cannot cache page: invalid page id") := by
  rw [Step, call, acquire] at hstep
  obtain ⟨pin, pager, hrun, -, -, -, -, hinv, hid, hflat⟩ | ⟨hfull, hrun⟩ | ⟨hlast, hrun⟩ :=
    Pager.newPage_run h.inv hactive
  · rw [hrun] at hstep
    cases hstep
    have hzero : pager.activePage s.pager.dbHeader.pageCount = some .zero :=
      FlatPager.newPage_page hflat
    obtain ⟨-, -, hdata, hpage⟩ := page_of_pin hinv (List.mem_cons_self ..) hid
    have hpin : (pager.page pin).data = .zero := Option.some.inj (hdata.symm.trans hzero)
    refine .inl ⟨?_, hzero, ?_⟩
    · rw [hpage, hpin]
      rfl
    · obtain ⟨hvalid, hcount⟩ := FlatPager.newPage_pageCount hflat
      have hlt := s.pager.dbHeader.pageCount.toNat_lt
      have hne : s.pager.dbHeader.pageCount.toNat ≠ 2 ^ 64 - 1 := fun hmax =>
        hvalid (UInt64.toNat.inj hmax)
      have hheader : pager.dbHeader.pageCount = s.pager.dbHeader.pageCount + 1 := hcount
      rw [hheader, UInt64.toNat_add, UInt64.toNat_one, Nat.mod_eq_of_lt (by omega)]
  · rw [hrun] at hstep
    cases hstep
    exact .inr (.inl ⟨hfull, rfl⟩)
  · rw [hrun] at hstep
    cases hstep
    exact .inr (.inr ⟨hlast, rfl⟩)

/-- What is expected of the page ids in a session. -/
structure Allocates (s : Session) : Prop where
  /-- A page of the database has a place, -/
  stored : ∀ pageId, pageId ≠ headerPageId →
    pageId.toNat < s.pager.dbHeader.pageCount.toNat →
    (∃ data, s.pager.bpm.content pageId = some data) ∨ pageId ∈ s.pager.recoveredPages ∨
      pageId.toNat < s.pager.filePages
  /-- and can be read. -/
  readable : ∀ pageId r s', pageId ≠ headerPageId →
    pageId.toNat < s.pager.dbHeader.pageCount.toNat → s.Step (.getPage pageId) r s' →
    (∃ data, s.pager.activePage pageId = some data ∧ r = .ok (some ⟨pageId, data⟩)) ∨
      s.pager.bpm.Exhausted ∧ r = .error BufferPoolManager.exhaustedStatus ∨
      ¬s.NoFaults ∧ ∃ e, r = .error e
  /-- No other id has a place, -/
  fresh : ∀ pageId, s.pager.dbHeader.pageCount.toNat ≤ pageId.toNat →
    s.pager.bpm.content pageId = none ∧ pageId ∉ s.pager.recoveredPages ∧
      s.pager.filePages ≤ pageId.toNat ∧ s.pager.committedPage pageId = none
  /-- and none can be read. -/
  unreadable : ∀ pageId r s', s.pager.dbHeader.pageCount.toNat ≤ pageId.toNat →
    s.Step (.getPage pageId) r s' → ∃ e, r = .error e
  /-- The next id is issued, unless the pool is full or there are no more ids. -/
  issues : ∀ r s', s.pager.transactionState.status = .active → s.Step .newPage r s' →
    s.Issued r s' ∨
      s.pager.bpm.Exhausted ∧ r = .error BufferPoolManager.exhaustedStatus ∨
      s.pager.dbHeader.pageCount = invalidPageId ∧
        r = .error (.InvalidArgument "Cannot cache page: invalid page id")
  /-- A rollback takes back the ids issued since the last commit. -/
  reissues : ∀ order page s', s.Step (.rollbackTransaction order) (.ok page) s' →
    s'.pager.dbHeader.pageCount = s.pager.committedHeader.pageCount

theorem Sound.rollback_ok (h : s.Sound) {order : IterationOrder PageId} {page : Option Page}
    (hstep : s.Step (.rollbackTransaction order) (.ok page) s') :
    s'.abs.flat = .settled s.abs.flat.committed := by
  obtain ⟨-, hanswer | ⟨e, he, -⟩ | ⟨_, e, -, he, -⟩⟩ := h.step hstep
  · obtain ⟨hr, hs⟩ := Prod.mk.inj (Option.some.inj hanswer)
    have hrollback : (FlatPager.rollbackTransaction s.abs.pinned).Yields s.abs.flat fun r flat =>
        r = .ok () → flat = .settled s.abs.flat.committed :=
      Proc.yields_get_bind (Proc.yields_failIf_bind (fun _ => nofun) fun _ =>
        Proc.yields_failIf_bind (fun _ => nofun) fun _ =>
          Proc.yields_failIf_bind (fun _ => nofun) fun _ =>
            Proc.yields_failIf_bind (fun _ => nofun) fun _ => Proc.yields_modify fun _ => rfl)
    unfold Proc.Yields at hrollback
    rcases hrun : (FlatPager.rollbackTransaction s.abs.pinned).run s.abs.flat with ⟨e | u, flat⟩
    · rw [hrun] at hr
      cases hr
    · rw [hrun] at hrollback hs
      rw [← hs]
      exact hrollback rfl
  · cases he
  · cases he

/-- In every session there can be, the pages that can be read are those below the
page count, and the next page is a new one. -/
theorem allocation_fresh (h : Reachable s) : s.Allocates := by
  have hsound := h.sound
  constructor
  · exact fun pageId hne hlt => hsound.inv.stored hne hlt
  · exact fun pageId r s' hne hlt hstep => hsound.getPage_of_lt hne hlt hstep
  · exact fun pageId hge => hsound.inv.not_stored hge
  · exact fun pageId r s' hge hstep => hsound.getPage_of_ge hge hstep
  · exact fun r s' hactive hstep => hsound.newPage_cases hactive hstep
  · intro order page s' hstep
    have hflat := hsound.rollback_ok hstep
    exact congrArg (fun flat : FlatPager => flat.active.header.pageCount) hflat

theorem allocation_fresh_small : ∃ s : Session, Reachable s ∧ s.Allocates := by
  obtain ⟨pager, hcreate, -⟩ := Pager.createEmpty_eq "db" (show 0 < 1 by decide) 7
  obtain ⟨r, s, hbegin⟩ : ∃ r s, (start pager).Step .beginTransaction r s := ⟨_, _, rfl⟩
  obtain ⟨r', s', hnew⟩ : ∃ r s', s.Step .newPage r s' := ⟨_, _, rfl⟩
  have hreach : Reachable s' := ((Reachable.create hcreate).step hbegin).step hnew
  exact ⟨s', hreach, allocation_fresh hreach⟩

/-- With 2^32 handles on a page that the transaction has made, the page can leave the
pool, and then it is nowhere. -/
theorem allocation_overflow : ∃ pager trace s,
    Pager.createEmpty "db" ⟨none, none⟩ 1 7 = .ok pager ∧ Runs Responds (start pager) trace s ∧
    s.pager.transactionState.status = .active ∧ s.pager.dbHeader.pageCount = 3 ∧
    ¬s.pager.bpm.Exhausted ∧ s.NoFaults ∧
    ∃ s', s.Responds (.getPage 2) (.error (DiskManager.outsideStatus "read" 2)) s' := by
  obtain ⟨pager, trace, s, hcreate, hrun, hlent, hnone, hcount⟩ := exists_lent_new
  obtain ⟨bpm, handles, hrun', hsingle⟩ := hlent.overflows
  obtain ⟨hvalid, hheader⟩ := hlent.named
  refine ⟨pager, _, ⟨s.pager.withPool bpm, handles⟩, hcreate, (responds_of_runs hrun).append hrun',
    hlent.active, hcount, hsingle.not_exhausted, hlent.noFaults, ?_⟩
  have hread := Pager.readCommitted_yields hlent.sound.inv hvalid hheader
  unfold Proc.Yields at hread
  rcases hrun : (Pager.readCommitted 2).run s.pager with ⟨r, pager'⟩
  rw [hrun] at hread
  obtain ⟨-, ⟨data, -, hdata⟩ | ⟨-, rfl⟩ | ⟨_, -, hfaults⟩⟩ := hread
  · cases hdata.symm.trans hnone
  · have hload := @Pager.getPage_run_uncached (s.pager.withPool bpm) hlent.sound.inv.isOpen 2 hvalid
      hheader (hsingle.other 2 (by decide))
    rw [Pager.loadPage, Proc.bind_run_error (Pager.readCommitted_withPool hrun bpm)] at hload
    refine ⟨⟨pager'.withPool bpm, handles⟩, ?_⟩
    rw [Responds, respond, acquire, hload]
  · exact absurd hlent.noFaults.1 hfaults

end Session

end DanDB.Storage
