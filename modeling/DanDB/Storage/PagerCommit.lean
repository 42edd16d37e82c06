import DanDB.Storage.PagerTransactions

/-!
# Commit

A commit copies every page of the transaction, writes the copies to the log and
then makes them the committed pages.  All that can go wrong goes wrong before
the last step.
-/

namespace DanDB.Storage

open DanDB.Core Platform Wal BufferPool

namespace Pager

variable {pager : Pager} {live : List PagePin}

/-- A copy of a page as the transaction sees it. -/
structure Current (pager : Pager) (page : Page) : Prop where
  header : page.id = headerPageId → page.data = pager.dbHeader.image
  page : page.id ≠ headerPageId → pager.activePage page.id = some page.data

theorem Current.of_abs {pager' : Pager} {page : Page} (h : Current pager' page)
    (habs : pager'.abs = pager.abs) : Current pager page := by
  have hheader : pager'.dbHeader = pager.dbHeader :=
    congrArg (fun flat : FlatPager => flat.active.header) habs
  have hpage : pager'.activePage = pager.activePage :=
    congrArg (fun flat : FlatPager => flat.active.page) habs
  exact ⟨fun hid => hheader ▸ h.header hid, fun hid => hpage ▸ h.page hid⟩

/-- The first loop finds out whether a page of the transaction is pinned. -/
theorem requireUnpinned_run (h : pager.Inv live) {pageIds : List PageId}
    (hmem : ∀ pageId ∈ pageIds, pageId ∈ pager.transactionState.dirtyPageIds) :
    (∃ pageId ∈ pageIds, pageId ≠ headerPageId ∧ pageId ∈ pager.pinned live) ∧
        (Proc.forEach requireUnpinned pageIds).run pager = (.error
          (.TransactionError "Cannot commit transaction: dirty page is still pinned"), pager) ∨
      (∀ pageId ∈ pageIds, ¬(pageId ≠ headerPageId ∧ pageId ∈ pager.pinned live)) ∧
        (Proc.forEach requireUnpinned pageIds).run pager = (.ok (), pager) := by
  have hcheck (pageId : PageId) (hp : pageId ∈ pageIds) : (requireUnpinned pageId).run pager =
      (if pageId ≠ headerPageId ∧ pageId ∈ pager.pinned live then
        .error (.TransactionError "Cannot commit transaction: dirty page is still pinned")
        else .ok (), pager) := by
    unfold requireUnpinned
    by_cases hheader : pageId = headerPageId
    · rw [if_pos hheader, if_neg fun hc => hc.1 hheader]
      rfl
    · obtain ⟨f, hf⟩ := h.pageFrames_of_dirty (hmem pageId hp) hheader
      obtain ⟨b, hrun, hb⟩ := BufferPoolManager.isUnpinned_run h.pool.inv hf
      rw [← mem_pinned] at hb
      rw [if_neg hheader, Proc.bind_run_ok (onPool_run hrun)]
      by_cases hpin : pageId ∈ pager.pinned live
      · have hfalse : b = false := by
          rw [← Bool.not_eq_true]
          exact fun ht => hb.mp ht hpin
        rw [Proc.failIf_run_of _ hfalse, if_pos ⟨hheader, hpin⟩]
        rfl
      · rw [Proc.failIf_run_of_not _ (by simp [hb.mpr hpin]), if_neg fun hc => hpin hc.2]
        rfl
  exact Proc.forEach_checks (c := fun pageId => pageId ≠ headerPageId ∧ pageId ∈ pager.pinned live)
    (fun pageId hp hc => (hcheck pageId hp).trans (by rw [if_pos hc]))
    (fun pageId hp hc => (hcheck pageId hp).trans (by rw [if_neg hc]))

/-- There is room for one more pin on a page that has none. -/
theorem count_lt_of_unpinned {pageId : PageId} (h : pageId ∉ pager.pinned live) :
    (pager.pinned live).count pageId < maxPins := by
  rw [List.count_eq_zero.mpr h]
  decide

/-- The second loop copies the pages. -/
theorem snapshots_yields (h : pager.Inv live) {pageIds : List PageId}
    (hmem : ∀ pageId ∈ pageIds, pageId ∈ pager.transactionState.dirtyPageIds)
    (hroom : ∀ pageId ∈ pageIds, (pager.pinned live).count pageId < maxPins) :
    (Proc.collect dirtyPageSnapshot pageIds).Yields pager fun r pager' =>
      ∃ pages, r = .ok pages ∧ pages.map Page.id = pageIds ∧ (∀ page ∈ pages, Current pager page) ∧
        pager'.Inv live ∧ ReadOnly live pager pager' ∧ ∃ bpm, pager' = pager.withPool bpm := by
  induction pageIds generalizing pager with
  | nil =>
    exact Proc.yields_pure ⟨[], rfl, rfl, fun _ hp => absurd hp List.not_mem_nil, h, .refl _ _,
      pager.bpm, rfl⟩
  | cons pageId rest ih =>
    have hsnapshot : (dirtyPageSnapshot pageId).Yields pager fun r pager' =>
        ∃ data, r = .ok ⟨pageId, data⟩ ∧ Current pager ⟨pageId, data⟩ ∧ pager'.Inv live ∧
          ReadOnly live pager pager' ∧ ∃ bpm, pager' = pager.withPool bpm := by
      by_cases hheader : pageId = headerPageId
      · subst hheader
        exact Proc.Yields.intro (dirtyPageSnapshot_header h.transaction.dbHeader)
          ⟨_, rfl, ⟨fun _ => rfl, fun hne => absurd rfl hne⟩, h, .refl _ _, pager.bpm, rfl⟩
      · obtain ⟨data, hdata⟩ := h.pool.content_of_dirty (hmem pageId (List.mem_cons_self ..)) hheader
        refine (dirtyPageSnapshot_yields h (hroom pageId (List.mem_cons_self ..)) hdata).mono ?_
        rintro r pager' ⟨rfl, hinv, hread, bpm, rfl, -⟩
        refine ⟨data, rfl, ⟨fun heq => absurd heq hheader, fun _ => ?_⟩, hinv, hread, bpm, rfl⟩
        rw [activePage, hdata]
        rfl
    refine hsnapshot.bind (fun page pager₁ hmid => ?_) (fun e pager₁ hmid => ?_)
    swap
    · obtain ⟨_, hr, -⟩ := hmid
      cases hr
    obtain ⟨data, hr, hcurrent, hinv, hread, bpm, rfl⟩ := hmid
    cases hr
    have hpins : (pager.withPool bpm).pinned live = pager.pinned live :=
      List.map_congr_left hread.pins
    refine (ih hinv (fun p hp => hmem p (List.mem_cons_of_mem _ hp)) fun p hp => ?_).bind
      (fun pages pager₂ hmid => ?_) (fun e pager₂ hmid => ?_)
    · rw [hpins]
      exact hroom p (List.mem_cons_of_mem _ hp)
    swap
    · obtain ⟨_, hr, -⟩ := hmid
      cases hr
    obtain ⟨pages, hr, hids, hall, hinv', hread', bpm', rfl⟩ := hmid
    cases hr
    refine Proc.yields_pure ⟨_, rfl, by rw [List.map_cons, hids], fun page hp => ?_, hinv',
      hread.trans hread', bpm', rfl⟩
    obtain rfl | hp := List.mem_cons.mp hp
    · exact hcurrent
    · exact (hall page hp).of_abs hread.abs

/-! ## Making the copies the committed pages -/

/-- The last loop under way: the pages in `rest` are still to come. -/
structure Publishing (base : Pager) (live : List PagePin) (pages rest : List Page)
    (pager : Pager) : Prop where
  same : pager = { base with
    bpm := pager.bpm
    recoveredPages := pager.recoveredPages
    committedHeader := pager.committedHeader }
  inv : pager.bpm.Inv (live.map PagePin.frameId)
  pins : ∀ f ∈ live.map PagePin.frameId, pager.bpm.pageId f = base.bpm.pageId f
  nodup : (rest.map Page.id).Nodup
  content : pager.bpm.content = base.bpm.content
  dirty : ∀ pageId, pager.bpm.dirty pageId = true →
    pageId ≠ headerPageId ∧ pageId ∈ rest.map Page.id
  published : ∀ page ∈ pages, page.id ≠ headerPageId → page ∉ rest →
    pager.recoveredPages.lookup page.id = some page
  other : ∀ pageId, pageId ∉ pages.map Page.id ∨ pageId = headerPageId →
    pager.recoveredPages.lookup pageId = base.recoveredPages.lookup pageId
  header : headerPageId ∉ rest.map Page.id → pager.committedHeader = base.dbHeader

section Publishing

variable {base : Pager} {pages rest : List Page} {page : Page}

theorem Publishing.step (h : Publishing base live pages (page :: rest) pager)
    (hmem : page ∈ pages) (hnodup : (pages.map Page.id).Nodup)
    (hcontent : page.id ≠ headerPageId → ∃ data, base.bpm.content page.id = some data) :
    (publishPage page).Yields pager fun r pager' =>
      r = .ok () ∧ Publishing base live pages rest pager' := by
  obtain ⟨hnotin, hrest⟩ := List.nodup_cons.mp (List.map_cons ▸ h.nodup)
  unfold publishPage
  split
  · rename_i hheader
    have hdb : pager.dbHeader = base.dbHeader := by rw [h.same]
    refine Proc.yields_modify ⟨rfl, ⟨?_, h.inv, h.pins, hrest, h.content, fun p hd => ?_,
      fun q hq hne hnot => h.published q hq hne fun hm => ?_, h.other, fun _ => hdb⟩⟩
    · rw [h.same]
    · obtain ⟨hne, hp⟩ := h.dirty p hd
      exact ⟨hne, (List.mem_cons.mp hp).resolve_left fun heq => hne (heq.trans hheader)⟩
    · obtain rfl | hm := List.mem_cons.mp hm
      · exact hne hheader
      · exact hnot hm
  · rename_i hne
    obtain ⟨data, hdata⟩ := hcontent hne
    rw [← h.content] at hdata
    obtain ⟨f, hf⟩ := pageFrames_of_content hdata
    obtain ⟨bpm, hrun, -, heffect⟩ := BufferPoolManager.clearDirty_effect h.inv hf
    have hunique {q : Page} (hq : q ∈ pages) (hid : q.id = page.id) : q = page :=
      List.inj_on_of_nodup_map hnodup hq hmem hid
    have honPool : (onPool (BufferPoolManager.clearDirty page.id)).run
        { pager with recoveredPages := pager.recoveredPages.insert page.id page } =
        (.ok (), ({ pager with
          recoveredPages := pager.recoveredPages.insert page.id page } : Pager).withPool bpm) :=
      onPool_run hrun
    refine Proc.yields_modify_bind (Proc.Yields.intro honPool ⟨rfl, ?_, heffect.inv,
      fun g hg => (heffect.pins g hg).trans (h.pins g hg), hrest, heffect.content.trans h.content,
      fun p hd => ?_, fun q hq hne' hnot => ?_, fun p hp => ?_, fun hheader => h.header ?_⟩)
    · rw [withPool, h.same]
    · replace hd : bpm.dirty p = true := hd
      rw [heffect.dirty] at hd
      by_cases heq : p = page.id
      · rw [heq, Function.update_self] at hd
        cases hd
      · rw [Function.update_of_ne heq] at hd
        exact (h.dirty p hd).imp_right fun hm => (List.mem_cons.mp hm).resolve_left heq
    · show (pager.recoveredPages.insert page.id page).lookup q.id = some q
      by_cases heq : q.id = page.id
      · rw [heq, AList.lookup_insert, hunique hq heq]
      · rw [AList.lookup_insert_ne heq]
        refine h.published q hq hne' fun hm => ?_
        obtain rfl | hm := List.mem_cons.mp hm
        · exact heq rfl
        · exact hnot hm
    · show (pager.recoveredPages.insert page.id page).lookup p = _
      rw [AList.lookup_insert_ne, h.other p hp]
      rintro rfl
      exact hp.elim (fun hp => hp (List.mem_map_of_mem hmem)) hne
    · rw [List.map_cons, List.mem_cons]
      exact fun hm => hm.elim (fun heq => hne heq.symm) hheader

/-- The loop over all pages. -/
theorem publish_yields (h : base.Inv live)
    (hpages : (pages.map Page.id).Perm base.transactionState.dirtyPageIds) :
    (Proc.forEach publishPage pages).Yields base fun r pager' =>
      r = .ok () ∧ Publishing base live pages [] pager' := by
  have hnodup : (pages.map Page.id).Nodup := hpages.nodup_iff.mpr h.transaction.dirtyNodup
  have hstart : Publishing base live pages pages base := by
    refine ⟨rfl, h.pool.inv, fun _ _ => rfl, hnodup, rfl, fun p hd => ?_,
      fun page hmem _ hnot => absurd hmem hnot, fun _ _ => rfl, fun hnot => ?_⟩
    · have hmem := h.pool.frameDirty p hd
      refine ⟨?_, hpages.mem_iff.mpr hmem⟩
      rintro rfl
      rw [BufferPoolManager.dirty_of_none
        (BufferPoolManager.content_eq_none.mp h.content_header)] at hd
      cases hd
    · exact (h.transaction.headerClean fun hold => hnot (hpages.mem_iff.mpr
        ((h.transaction.dirty_iff _).mpr (.inr hold)))).symm
  have hloop := Proc.yields_forEach_ok publishPage pages
    (fun rest p => Publishing base live pages rest p ∧ ∀ page ∈ rest, page ∈ pages)
    ⟨hstart, fun _ hm => hm⟩ (fun page rest p hp => ?_)
  · exact hloop.mono fun r p hp => ⟨hp.1, hp.2.1⟩
  · have hmem := hp.2 page (List.mem_cons_self ..)
    refine (hp.1.step hmem hnodup fun hne => h.pool.content_of_dirty
      (hpages.mem_iff.mp (List.mem_map_of_mem hmem)) hne).mono
      fun r p' hp' => ⟨hp'.1, hp'.2, fun e he => hp.2 e (List.mem_cons_of_mem _ he)⟩

/-- Once all copies are published, the committed pages are the active ones. -/
theorem Publishing.committedPage (h : Publishing base live pages [] pager) (hbase : base.Inv live)
    (hpages : (pages.map Page.id).Perm base.transactionState.dirtyPageIds)
    (hcurrent : ∀ page ∈ pages, Current base page) :
    pager.committedPage = base.activePage := by
  funext pageId
  have hdisk : pager.diskManager = base.diskManager := by rw [h.same]
  by_cases hheader : pageId = headerPageId
  · rw [hheader, activePage, hbase.content_header, Option.none_or, Pager.committedPage,
      Pager.committedPage, if_pos rfl, if_pos rfl]
  by_cases hmem : pageId ∈ base.transactionState.dirtyPageIds
  · obtain ⟨page, hp, rfl⟩ := List.mem_map.mp (hpages.mem_iff.mpr hmem)
    rw [Pager.committedPage, if_neg hheader, h.published page hp hheader List.not_mem_nil,
      (hcurrent page hp).page hheader]
  · have hother := h.other pageId (.inl fun hm => hmem (hpages.mem_iff.mp hm))
    rw [hbase.activePage_of_clean hmem, Pager.committedPage, Pager.committedPage, hother,
      Pager.filePages, Pager.filePages, hdisk]

theorem Publishing.file (h : Publishing base live pages [] pager) (hbase : base.Inv live)
    (hpages : (pages.map Page.id).Perm base.transactionState.dirtyPageIds)
    (hcurrent : ∀ page ∈ pages, Current base page) : pager.FileInv := by
  have hdisk : pager.diskManager = base.diskManager := by rw [h.same]
  have hfile : pager.filePages = base.filePages := by rw [Pager.filePages, hdisk, Pager.filePages]
  have hheader := h.header List.not_mem_nil
  have hcount := hbase.transaction.pageCount
  refine ⟨by rw [hdisk, hfile]; exact hbase.file.holds, ?_, fun pageId hne hlt => ?_,
    fun pageId page hlookup => ?_⟩
  · rw [hfile, hheader]
    exact hbase.file.filePages_le.trans hcount
  · rw [hheader] at hlt
    rw [hfile]
    by_cases hmem : pageId ∈ base.transactionState.dirtyPageIds
    · obtain ⟨page, hp, rfl⟩ := List.mem_map.mp (hpages.mem_iff.mpr hmem)
      refine .inl (AList.lookup_isSome.mp ?_)
      rw [h.published page hp hne List.not_mem_nil]
      rfl
    · have hlt' : pageId.toNat < base.committedHeader.pageCount.toNat := by
        by_contra hge
        exact hmem ((hbase.transaction.dirty_iff _).mpr (.inl
          ((hbase.transaction.new_iff _).mpr ⟨by omega, hlt⟩)))
      have hother := h.other pageId (.inl fun hm => hmem (hpages.mem_iff.mp hm))
      refine (hbase.file.stored pageId hne hlt').imp_left fun hold => ?_
      rw [← AList.lookup_isSome] at hold ⊢
      rwa [hother]
  · rw [hheader]
    by_cases hmem : pageId ∉ pages.map Page.id ∨ pageId = headerPageId
    · rw [h.other pageId hmem] at hlookup
      obtain ⟨hid, hne, hlt⟩ := hbase.file.recovered pageId page hlookup
      exact ⟨hid, hne, hlt.trans_le hcount⟩
    · obtain ⟨hin, hne⟩ := not_or.mp hmem
      obtain ⟨q, hq, rfl⟩ := List.mem_map.mp (not_not.mp hin)
      rw [h.published q hq hne List.not_mem_nil] at hlookup
      cases hlookup
      exact ⟨rfl, hne, ((hbase.activePage_isSome _).mp ⟨_, (hcurrent page hq).page hne⟩).2⟩

/-- The pager after the loop, without the transaction. -/
theorem Publishing.settle (h : Publishing base live pages [] pager) (hbase : base.Inv live)
    (hpages : (pages.map Page.id).Perm base.transactionState.dirtyPageIds)
    (hcurrent : ∀ page ∈ pages, Current base page)
    (hunpinned : ∀ pageId ∈ base.pinned live, pageId ∉ base.transactionState.dirtyPageIds) :
    pager.settle.Inv live ∧ pager.settle.abs = .settled base.abs.active := by
  have hheader := h.header List.not_mem_nil
  have hcommitted := h.committedPage hbase hpages hcurrent
  have hdb : pager.dbHeader = base.dbHeader := by rw [h.same]
  obtain ⟨hinv, habs⟩ := Inv.settle pager live
    ((congrArg Pager.closed h.same).trans hbase.isOpen) (h.file hbase hpages hcurrent)
    (hheader.symm ▸ hbase.transaction.dbHeader) (hdb.trans hheader.symm) h.inv
    (fun pageId data hdata => by
      rw [h.content] at hdata
      refine ⟨(hbase.pool.cached pageId data hdata).1, ?_⟩
      rw [hcommitted, activePage, hdata]
      rfl)
    (fun pageId => Bool.not_eq_true _ ▸ fun hd => List.not_mem_nil (h.dirty pageId hd).2)
    (fun pin hpin => Bool.not_eq_true _ ▸ fun hd => hunpinned _
      (List.mem_map_of_mem hpin) (hbase.pool.pinDirty pin hpin hd))
  refine ⟨hinv, habs.trans ?_⟩
  rw [hheader, hcommitted]
  rfl

end Publishing

/-! ## The whole commit -/

section Commit

variable {log : List LogTransaction} (order : IterationOrder PageId)

/-- The transaction as a commit writes it to the log: every page of it as it is
now. -/
structure Records (pager : Pager) (t : LogTransaction) : Prop where
  pageIds : (t.pages.map Page.id).Perm pager.transactionState.dirtyPageIds
  current : ∀ page ∈ t.pages, Current pager page

/-- What a commit leaves: the transaction in the log and committed, or the pager
as it was, or some first bytes of the transaction behind the log. -/
def Committed (pager : Pager) (live : List PagePin) (log : List LogTransaction) (pager' : Pager) :
    Except Status Unit → Prop
  | .ok _ => (FlatPager.commitTransaction (pager.pinned live)).run pager.abs =
        (.ok (), pager'.abs) ∧ pager.transactionState.status = .active ∧
      pager'.abs = .settled pager.abs.active ∧
      ∃ t, pager.Records t ∧ pager'.walManager.Logs (log ++ [t])
  | .error e =>
    SameStore pager pager' ∧ pager'.abs = pager.abs ∧
        (FlatPager.commitTransaction (pager.pinned live)).run pager.abs = (.error e, pager.abs) ∨
      pager.walManager.fileHandle.faults ≠ [] ∧
        pager'.abs = { pager.abs with status := .unresolved } ∧
        ∃ t n, pager.Records t ∧ pager'.walManager.LogsTorn log (t.encode.take n)

theorem Inv.valid_of_dirty (h : pager.Inv live) {pageId : PageId}
    (hmem : pageId ∈ pager.transactionState.dirtyPageIds) : pageId.isValid = true := by
  have hvalid : pageId ≠ invalidPageId := by
    by_cases hheader : pageId = headerPageId
    · rw [hheader]
      decide
    · obtain ⟨f, hf⟩ := h.pageFrames_of_dirty hmem hheader
      exact (h.pool.inv.mapped pageId f hf).2.2.2
  simpa [PageId.isValid] using hvalid

/-- The pager with another state of the log. -/
def withWal (pager : Pager) (wal : WalManager) : Pager := { pager with walManager := wal }

theorem Inv.withWal (h : pager.Inv live) (wal : WalManager) : (pager.withWal wal).Inv live :=
  ⟨h.isOpen, ⟨h.file.holds, h.file.filePages_le, h.file.stored, h.file.recovered⟩,
    ⟨h.transaction.dbHeader, h.transaction.committedHeader, h.transaction.databaseId,
      h.transaction.pageCount, h.transaction.inactive, h.transaction.dirtyNodup,
      h.transaction.newNodup, h.transaction.dirty_iff, h.transaction.new_iff,
      h.transaction.original, h.transaction.headerClean⟩,
    ⟨h.pool.inv, h.pool.cached, h.pool.held, h.pool.frameDirty, h.pool.pinDirty⟩⟩

/-- The log takes the copies, or the transaction is unresolved. -/
theorem writeLog_yields (hlogs : pager.walManager.Logs log) {pages : List Page}
    (hvalid : ∀ page ∈ pages, page.id.isValid = true) :
    (writeLog pages).Yields pager fun r pager' =>
      ∃ wal, WalManager.SameManager pager.walManager wal ∧
        (r = .ok () ∧ pager' = pager.withWal wal ∧
            wal.Logs (log ++ [⟨pager.transactionState.transactionId, pages⟩]) ∨
          (∃ e, r = .error e) ∧ pager.walManager.fileHandle.faults ≠ [] ∧
            pager' = (pager.withWal wal).withStatus .unresolved
              pager.transactionState.transactionId pager.nextTransactionId ∧
            ∃ n, wal.LogsTorn log ((LogTransaction.encode
              ⟨pager.transactionState.transactionId, pages⟩).take n)) := by
  have hcommit := WalManager.commitTransaction_yields hlogs pager.transactionState.transactionId
    hvalid
  have honWal : (onWal (WalManager.commitTransaction pager.transactionState.transactionId
      pages)).Yields pager fun r pager' =>
      ∃ wal, pager' = pager.withWal wal ∧ WalManager.SameManager pager.walManager wal ∧
        (r = .ok () ∧ wal.Logs (log ++ [⟨pager.transactionState.transactionId, pages⟩]) ∨
          (∃ e, r = .error e) ∧ pager.walManager.fileHandle.faults ≠ [] ∧
            ∃ n, wal.LogsTorn log ((LogTransaction.encode
              ⟨pager.transactionState.transactionId, pages⟩).take n)) :=
    Proc.yields_zoom (hcommit.mono fun r wal ⟨hsame, hr⟩ => ⟨wal, rfl, hsame, hr⟩)
  refine Proc.yields_get_bind (honWal.attempt_bind fun r pager' hmid => ?_)
  obtain ⟨wal, rfl, hsame, ⟨rfl, hlogs'⟩ | ⟨⟨e, rfl⟩, hfaults, htorn⟩⟩ := hmid
  · exact Proc.yields_pure ⟨wal, hsame, .inl ⟨rfl, rfl, hlogs'⟩⟩
  · exact Proc.yields_modify_bind
      (Proc.yields_fail ⟨wal, hsame, .inr ⟨⟨e, rfl⟩, hfaults, rfl, htorn⟩⟩)

/-- The part of a commit after its checks. -/
theorem writePages_yields (h : pager.Inv live) (hlogs : pager.walManager.Logs log)
    (hunpinned : ∀ pageId ∈ pager.pinned live, pageId ∉ pager.transactionState.dirtyPageIds) :
    (do
      let dirtyPages ← Proc.collect dirtyPageSnapshot
        (order.visit pager.transactionState.dirtyPageIds)
      writeLog dirtyPages
      Proc.forEach publishPage dirtyPages
      setTransaction .none : Proc Status Pager Unit).Yields pager fun r pager' =>
      pager'.Inv live ∧ SamePins live pager pager' ∧
        DiskManager.SameBytes pager.diskManager pager'.diskManager ∧
        WalManager.SameManager pager.walManager pager'.walManager ∧
        (r = .ok () ∧ pager'.abs = .settled pager.abs.active ∧
            (∃ t, pager.Records t ∧ pager'.walManager.Logs (log ++ [t])) ∨
          (∃ e, r = .error e) ∧ pager.walManager.fileHandle.faults ≠ [] ∧
            pager'.abs = { pager.abs with status := .unresolved } ∧
            ∃ t n, pager.Records t ∧ pager'.walManager.LogsTorn log (t.encode.take n)) := by
  have hmem : ∀ pageId ∈ order.visit pager.transactionState.dirtyPageIds,
      pageId ∈ pager.transactionState.dirtyPageIds := fun _ hp => order.mem_visit.mp hp
  refine (snapshots_yields h hmem fun _ hp =>
    count_lt_of_unpinned fun hpin => hunpinned _ hpin (hmem _ hp)).bind (fun pages pager₁ hmid => ?_) fun e pager₁ hmid => ?_
  swap
  · obtain ⟨_, hr, -⟩ := hmid
    cases hr
  obtain ⟨pages, hr, hids, hcurrent, hinv₁, hread, bpm, rfl⟩ := hmid
  cases hr
  have hperm : (pages.map Page.id).Perm pager.transactionState.dirtyPageIds := by
    rw [hids]
    exact order.perm _
  have hvalid : ∀ page ∈ pages, page.id.isValid = true := fun page hp =>
    h.valid_of_dirty (hperm.mem_iff.mp (List.mem_map_of_mem hp))
  refine (@writeLog_yields (pager.withPool bpm) _ hlogs _ hvalid).bind
    (fun _ pager₂ hmid => ?_) fun e pager₂ hmid => ?_
  · obtain ⟨wal, hwal, ⟨-, rfl, hlogs'⟩ | ⟨⟨_, hr⟩, -⟩⟩ := hmid
    swap
    · cases hr
    have hinv₂ := hinv₁.withWal wal
    have habs₂ : ((pager.withPool bpm).withWal wal).abs = pager.abs := hread.abs
    have hcurrent₂ : ∀ page ∈ pages, Current ((pager.withPool bpm).withWal wal) page :=
      fun page hp => (hcurrent page hp).of_abs habs₂.symm
    have hpins₂ : ((pager.withPool bpm).withWal wal).pinned live = pager.pinned live :=
      List.map_congr_left hread.pins
    refine (publish_yields hinv₂ hperm).bind (fun _ pager₃ hmid => ?_) fun _ _ hmid => by
      cases hmid.1
    have hpub := hmid.2
    obtain ⟨hinv₃, habs₃⟩ := hpub.settle hinv₂ hperm hcurrent₂ (by rw [hpins₂]; exact hunpinned)
    refine Proc.yields_modify ⟨hinv₃, fun pin hpin => ?_, ?_, ?_, .inl ⟨rfl, ?_,
      ⟨pager.transactionState.transactionId, pages⟩, ⟨hperm, hcurrent⟩, ?_⟩⟩
    · exact (hpub.pins _ (List.mem_map_of_mem hpin)).trans (hread.pins pin hpin)
    · show DiskManager.SameBytes pager.diskManager pager₃.diskManager
      rw [hpub.same]
      exact .refl _
    · show WalManager.SameManager pager.walManager pager₃.walManager
      rw [hpub.same]
      exact hwal
    · rw [habs₂] at habs₃
      exact habs₃
    · show pager₃.walManager.Logs _
      rw [hpub.same]
      exact hlogs'
  · obtain ⟨wal, hwal, ⟨hr, -⟩ | ⟨-, hfaults, rfl, n, htorn⟩⟩ := hmid
    · cases hr
    refine ⟨(hinv₁.withWal wal).withStatus (by decide) _ _, hread.pins, .refl _, hwal,
      .inr ⟨⟨e, rfl⟩, hfaults, ?_, _, n, ⟨hperm, hcurrent⟩, htorn⟩⟩
    rw [← hread.abs]
    rfl

theorem commitTransaction_yields (h : pager.Inv live)
    (hlogs : pager.transactionState.status = .active → pager.walManager.Logs log) :
    (commitTransaction order).Yields pager fun r pager' =>
      pager'.Inv live ∧ SamePins live pager pager' ∧
        DiskManager.SameBytes pager.diskManager pager'.diskManager ∧
        WalManager.SameManager pager.walManager pager'.walManager ∧
        Committed pager live log pager' r := by
  have hrefused {pager' : Pager} {e : Status} (hinv : pager'.Inv live)
      (hsame : SameStore pager pager') (hpins : SamePins live pager pager')
      (habs : pager'.abs = pager.abs)
      (hflat : (FlatPager.commitTransaction (pager.pinned live)).run pager.abs =
        (.error e, pager.abs)) :
      pager'.Inv live ∧ SamePins live pager pager' ∧
        DiskManager.SameBytes pager.diskManager pager'.diskManager ∧
        WalManager.SameManager pager.walManager pager'.walManager ∧
        Committed pager live log pager' (.error e) :=
    ⟨hinv, hpins, hsame.disk, hsame.wal ▸ .refl _, .inl ⟨hsame, habs, hflat⟩⟩
  unfold Proc.Yields
  obtain ⟨r, hrun, hflat, ⟨rfl, hactive⟩ | ⟨e, rfl⟩⟩ :=
    requireActive_run h.isOpen "commit transaction"
  swap
  · rw [commitTransaction, Proc.bind_run_error hrun]
    refine hrefused h (.refl _) (.refl _ _) rfl ?_
    rw [FlatPager.commitTransaction, Proc.bind_run_error hflat]
  rw [commitTransaction, Proc.bind_run_ok hrun, Proc.get_bind_run]
  have hmem : ∀ pageId ∈ order.visit pager.transactionState.dirtyPageIds,
      pageId ∈ pager.transactionState.dirtyPageIds := fun _ hp => order.mem_visit.mp hp
  have hflat' : (FlatPager.commitTransaction (pager.pinned live)).run pager.abs = (do
      Proc.failIf (∃ pageId ∈ pager.abs.dirtyPageIds,
          pageId ≠ headerPageId ∧ pageId ∈ pager.pinned live)
        (.TransactionError "Cannot commit transaction: dirty page is still pinned")
      Proc.modify fun flat => .settled flat.active : Proc Status FlatPager Unit).run
        pager.abs := by
    rw [FlatPager.commitTransaction, Proc.bind_run_ok hflat, Proc.get_bind_run]
  obtain ⟨⟨pageId, hp, hne, hpin⟩, hrun⟩ | ⟨hall, hrun⟩ := requireUnpinned_run h hmem
  · have hpinned : ∃ pageId ∈ pager.abs.dirtyPageIds,
        pageId ≠ headerPageId ∧ pageId ∈ pager.pinned live := ⟨pageId, hmem pageId hp, hne, hpin⟩
    rw [Proc.bind_run_error hrun]
    refine hrefused h (.refl _) (.refl _ _) rfl (hflat'.trans ?_)
    rw [Proc.bind_run_error (Proc.failIf_run_of pager.abs hpinned _)]
  have hunpinned : ∀ pageId ∈ pager.pinned live,
      pageId ∉ pager.transactionState.dirtyPageIds := fun pageId hpin hp =>
    hall pageId (order.mem_visit.mpr hp)
      ⟨fun heq => h.header_not_pinned (heq ▸ hpin), hpin⟩
  have hclean : ¬∃ pageId ∈ pager.abs.dirtyPageIds,
      pageId ≠ headerPageId ∧ pageId ∈ pager.pinned live :=
    by
      rintro ⟨pageId, hp, -, hpin⟩
      exact hunpinned pageId hpin hp
  rw [Proc.bind_run_ok (Proc.failIf_run_of_not pager.abs hclean _), Proc.modify_run] at hflat'
  rw [Proc.bind_run_ok hrun]
  have hdone := writePages_yields order h (hlogs hactive) hunpinned
  unfold Proc.Yields at hdone
  obtain ⟨hinv, hpins, hdisk, hwal, ⟨hr, habs, ht⟩ | ⟨⟨e, hr⟩, hfailed⟩⟩ := hdone
  · rw [hr]
    exact ⟨hinv, hpins, hdisk, hwal, hflat'.trans (by rw [habs]), hactive, habs, ht⟩
  · rw [hr]
    exact ⟨hinv, hpins, hdisk, hwal, .inr hfailed⟩

end Commit

end Pager

end DanDB.Storage
