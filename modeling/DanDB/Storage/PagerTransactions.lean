import DanDB.Storage.PagerPages

/-!
# Beginning, committing and rolling back

A rollback first checks everything that could stop it, so it fails with the
pager as it was or puts every page back.  A commit fails with the pager as it
was, or because the log could not be written, and then the outcome of the
transaction is open.
-/

namespace DanDB.Storage

open DanDB.Core Platform Wal BufferPool

namespace Pager

variable {pager : Pager} {live : List PagePin}

theorem mem_pinned {pageId : PageId} :
    pageId ∈ pager.pinned live ↔
      ∃ f ∈ live.map PagePin.frameId, pager.bpm.pageId f = pageId := by
  simp only [pinned, List.mem_map, pinId, exists_exists_and_eq_and]

theorem Inv.header_not_pinned (h : pager.Inv live) : headerPageId ∉ pager.pinned live := by
  intro hmem
  obtain ⟨pin, hpin, hid⟩ := List.mem_map.mp hmem
  exact h.pinId_ne_header hpin hid

/-! ## The status of the transaction -/

/-- Another status or id for the transaction. -/
def withStatus (pager : Pager) (status : TransactionStatus) (transactionId next : UInt64) : Pager :=
  { pager with
    transactionState := { pager.transactionState with
      status := status
      transactionId := transactionId }
    nextTransactionId := next }

theorem Inv.withStatus (h : pager.Inv live) {status : TransactionStatus}
    (hstatus : status ≠ .inactive) (transactionId next : UInt64) :
    (pager.withStatus status transactionId next).Inv live :=
  ⟨h.isOpen, ⟨h.file.holds, h.file.filePages_le, h.file.stored, h.file.recovered⟩,
    ⟨h.transaction.dbHeader, h.transaction.committedHeader, h.transaction.databaseId,
      h.transaction.pageCount, fun hs => absurd hs hstatus, h.transaction.dirtyNodup,
      h.transaction.newNodup, h.transaction.dirty_iff, h.transaction.new_iff,
      h.transaction.original, h.transaction.headerClean⟩,
    ⟨h.pool.inv, h.pool.cached, h.pool.held, h.pool.frameDirty, h.pool.pinDirty⟩⟩

theorem beginTransaction_yields (h : pager.Inv live) :
    beginTransaction.Yields pager fun r pager' =>
      SameStore pager pager' ∧ SamePins live pager pager' ∧ pager'.Inv live ∧
        FlatPager.beginTransaction.run pager.abs = (r, pager'.abs) ∧
        (∀ e, r = .error e → pager' = pager) := by
  have hstatus : pager.abs.status = pager.transactionState.status := rfl
  unfold Proc.Yields
  rw [beginTransaction, FlatPager.beginTransaction, Proc.get_bind_run, Proc.get_bind_run,
    Proc.bind_run_ok (Proc.failIf_run_of_not pager (by simp [h.isOpen]) _)]
  by_cases hactive : pager.transactionState.status = .inactive
  · have hin : pager.transactionState.inTransaction = false := by simp [hactive]
    rw [Proc.bind_run_ok (Proc.failIf_run_of_not pager (by simp [hin]) _),
      Proc.bind_run_ok (Proc.failIf_run_of_not pager.abs (by simp [hstatus, hactive]) _)]
    exact ⟨⟨.refl _, rfl, rfl, rfl⟩, fun _ _ => rfl, h.withStatus (by decide) _ _, rfl,
      fun e he => by cases he⟩
  · have hin : pager.transactionState.inTransaction = true := by
      rw [← Bool.not_eq_false, TransactionState.inTransaction_eq_false]
      exact hactive
    rw [Proc.bind_run_error (Proc.failIf_run_of pager hin _),
      Proc.bind_run_error (Proc.failIf_run_of pager.abs (by simpa [hstatus] using hactive) _)]
    exact ⟨.refl _, fun _ _ => rfl, h, rfl, fun _ _ => rfl⟩

theorem markTransactionFailed_yields (h : pager.Inv live) :
    markTransactionFailed.Yields pager fun r pager' =>
      SameStore pager pager' ∧ SamePins live pager pager' ∧ pager'.Inv live ∧
        FlatPager.markTransactionFailed.run pager.abs = (r, pager'.abs) := by
  have hstatus : pager.abs.status = pager.transactionState.status := rfl
  unfold Proc.Yields
  rw [markTransactionFailed, FlatPager.markTransactionFailed, Proc.get_bind_run,
    Proc.get_bind_run,
    Proc.bind_run_ok (Proc.failIf_run_of_not pager (by simp [h.isOpen]) _)]
  by_cases hinactive : pager.transactionState.status = .inactive
  · rw [Proc.bind_run_error (Proc.failIf_run_of pager (by simp [hinactive]) _),
      Proc.bind_run_error (Proc.failIf_run_of pager.abs (by simp [hstatus, hinactive]) _)]
    exact ⟨.refl _, fun _ _ => rfl, h, rfl⟩
  rw [Proc.bind_run_ok (Proc.failIf_run_of_not pager (by simp [hinactive]) _),
    Proc.bind_run_ok (Proc.failIf_run_of_not pager.abs (by simp [hstatus, hinactive]) _)]
  by_cases hunresolved : pager.transactionState.status = .unresolved
  · rw [Proc.bind_run_error (Proc.failIf_run_of pager (by simp [hunresolved]) _),
      Proc.bind_run_error (Proc.failIf_run_of pager.abs (by simp [hstatus, hunresolved]) _)]
    exact ⟨.refl _, fun _ _ => rfl, h, rfl⟩
  rw [Proc.bind_run_ok (Proc.failIf_run_of_not pager (by simp [hunresolved]) _),
    Proc.bind_run_ok (Proc.failIf_run_of_not pager.abs (by simp [hstatus, hunresolved]) _)]
  exact ⟨⟨.refl _, rfl, rfl, rfl⟩, fun _ _ => rfl, h.withStatus (by decide) _ _, rfl⟩

/-! ## The end of a transaction -/

/-- The pager without a transaction. -/
def settle (pager : Pager) : Pager := { pager with transactionState := .none }

/-- A transaction can end once the header is the committed one and the pool
holds nothing but committed pages, all clean. -/
theorem Inv.settle (pager : Pager) (live : List PagePin) (hopen : pager.closed = false) (hfile : pager.FileInv)
    (hvalid : pager.committedHeader.Valid) (hheader : pager.dbHeader = pager.committedHeader)
    (hpool : pager.bpm.Inv (live.map PagePin.frameId))
    (hcached : ∀ pageId data, pager.bpm.content pageId = some data →
      pageId ≠ headerPageId ∧ pager.committedPage pageId = some data)
    (hclean : ∀ pageId, pager.bpm.dirty pageId = false)
    (hpins : ∀ pin ∈ live, pin.isDirty = false) :
    pager.settle.Inv live ∧
      pager.settle.abs = .settled ⟨pager.committedHeader, pager.committedPage⟩ := by
  have hnone {pageId : PageId} : pageId ∉ (∅ : AList fun _ : PageId => Page) :=
    AList.notMem_empty pageId
  refine ⟨⟨hopen, ⟨hfile.holds, hfile.filePages_le, hfile.stored, hfile.recovered⟩,
    ⟨?_, hvalid, ?_, ?_, fun _ => rfl, List.nodup_nil, List.nodup_nil, fun pageId => ?_,
      fun pageId => ?_, fun pageId page hlookup => ?_, fun _ => hheader⟩,
    ⟨hpool, fun pageId data hdata => (hcached pageId data hdata).imp_right .inr,
      fun pageId hmem => absurd hmem List.not_mem_nil, fun pageId hd => ?_,
      fun pin hpin hd => ?_⟩⟩, ?_⟩
  · exact hheader.symm ▸ hvalid
  · exact congrArg DatabaseHeader.databaseId hheader
  · exact (congrArg (fun header : DatabaseHeader => header.pageCount.toNat) hheader).ge
  · show pageId ∈ [] ↔ pageId ∈ [] ∨ pageId ∈ (∅ : AList fun _ : PageId => Page)
    simp only [List.not_mem_nil, hnone, or_self]
  · show pageId ∈ [] ↔ pager.committedHeader.pageCount.toNat ≤ pageId.toNat ∧
      pageId.toNat < pager.dbHeader.pageCount.toNat
    rw [hheader]
    simp only [List.not_mem_nil, false_iff, not_and, not_lt, imp_self]
  · cases hlookup
  · rw [show pager.settle.bpm = pager.bpm from rfl, hclean] at hd
    cases hd
  · rw [hpins pin hpin] at hd
    cases hd
  · have hactive : pager.settle.activePage = pager.committedPage := by
      funext pageId
      rw [activePage, show pager.settle.bpm = pager.bpm from rfl,
        show pager.settle.committedPage = pager.committedPage from rfl]
      rcases hdata : pager.bpm.content pageId with _ | data
      · rfl
      · rw [(hcached pageId data hdata).2]
        rfl
    rw [abs, hactive, show pager.settle.dbHeader = pager.committedHeader from hheader]
    rfl

/-! ## Rollback -/

/-- A rollback under way: `rest` are the pages of the transaction that are not
back yet. -/
structure Rolling (base : Pager) (live : List PagePin) (rest : List PageId) (pager : Pager) :
    Prop where
  same : pager = { base with bpm := pager.bpm, dbHeader := pager.dbHeader }
  inv : pager.bpm.Inv (live.map PagePin.frameId)
  pins : ∀ f ∈ live.map PagePin.frameId, pager.bpm.pageId f = base.bpm.pageId f
  nodup : rest.Nodup
  present : ∀ pageId ∈ rest, pageId ≠ headerPageId → ∃ f, pager.bpm.pageFrames pageId = some f
  cached : ∀ pageId data, pager.bpm.content pageId = some data →
    pageId ≠ headerPageId ∧ (pageId ∈ rest ∨ base.committedPage pageId = some data)
  dirty : ∀ pageId, pager.bpm.dirty pageId = true → pageId ∈ rest
  header : headerPageId ∉ rest → pager.dbHeader = base.committedHeader

section Rolling

variable {base : Pager} {pageId : PageId} {rest : List PageId}

theorem Rolling.not_pinned (h : Rolling base live (pageId :: rest) pager)
    (hpin : pageId ∉ base.pinned live) :
    ¬∃ f ∈ live.map PagePin.frameId, pager.bpm.pageId f = pageId := by
  rintro ⟨f, hf, hid⟩
  exact hpin (mem_pinned.mpr ⟨f, hf, (h.pins f hf).symm.trans hid⟩)

/-- One page is as it was committed, or gone if it was not. -/
theorem Rolling.step (h : Rolling base live (pageId :: rest) pager) (hne : pageId ≠ headerPageId)
    {bpm : BufferPoolManager}
    (heffect : BufferPoolManager.Effect pager.bpm bpm (live.map PagePin.frameId)
      (live.map PagePin.frameId)
      (Function.update pager.bpm.content pageId (base.committedPage pageId))
      (Function.update pager.bpm.dirty pageId false))
    (hframes : ∀ p, p ≠ pageId → bpm.pageFrames p = pager.bpm.pageFrames p) :
    Rolling base live rest (pager.withPool bpm) := by
  obtain ⟨hnotin, hnodup⟩ := List.nodup_cons.mp h.nodup
  refine ⟨?_, heffect.inv, fun f hf => (heffect.pins f hf).trans (h.pins f hf), hnodup,
    fun p hp hnep => ?_, fun p data hdata => ?_, fun p hd => ?_, fun hheader => ?_⟩
  · rw [withPool, h.same]
  · obtain ⟨f, hf⟩ := h.present p (List.mem_cons_of_mem _ hp) hnep
    exact ⟨f, (hframes p fun heq => hnotin (heq ▸ hp)).trans hf⟩
  · rw [show (pager.withPool bpm).bpm.content = _ from heffect.content] at hdata
    by_cases heq : p = pageId
    · subst heq
      rw [Function.update_self] at hdata
      exact ⟨hne, .inr hdata⟩
    · rw [Function.update_of_ne heq] at hdata
      exact (h.cached p data hdata).imp_right fun hor =>
        hor.imp_left fun hmem => (List.mem_cons.mp hmem).resolve_left heq
  · rw [show (pager.withPool bpm).bpm.dirty = _ from heffect.dirty] at hd
    by_cases heq : p = pageId
    · rw [heq, Function.update_self] at hd
      cases hd
    · rw [Function.update_of_ne heq] at hd
      exact (List.mem_cons.mp (h.dirty p hd)).resolve_left heq
  · exact h.header fun hmem => hheader ((List.mem_cons.mp hmem).resolve_left hne.symm)

theorem Rolling.restore (hbase : base.TransactionInv)
    {page : Page} (h : Rolling base live (pageId :: rest) pager)
    (hlookup : base.transactionState.originalPages.lookup pageId = some page)
    (hpin : pageId ∉ base.pinned live) :
    (restoreOriginal (pageId, page)).Yields pager fun r pager' =>
      r = .ok () ∧ Rolling base live rest pager' := by
  obtain ⟨hid, -, himage, hcommitted⟩ := hbase.original pageId page hlookup
  obtain ⟨hnotin, hnodup⟩ := List.nodup_cons.mp h.nodup
  unfold restoreOriginal
  split
  · rename_i hheader
    simp only at hheader
    rw [himage hheader, DatabaseHeader.decode_image hbase.committedHeader]
    refine Proc.yields_ofExcept_bind (fun _ he => by cases he) fun header hheader' => ?_
    cases hheader'
    refine Proc.yields_modify ⟨rfl, ⟨?_, h.inv, h.pins, hnodup, fun p hp =>
      h.present p (List.mem_cons_of_mem _ hp), fun p data hdata => ?_, fun p hd => ?_,
      fun _ => rfl⟩⟩
    · rw [h.same]
    · obtain ⟨hne, hor⟩ := h.cached p data hdata
      exact ⟨hne, hor.imp_left fun hmem => (List.mem_cons.mp hmem).resolve_left (hheader ▸ hne)⟩
    · refine (List.mem_cons.mp (h.dirty p hd)).resolve_left ?_
      rintro rfl
      rcases hf : pager.bpm.pageFrames p with _ | f
      · rw [BufferPoolManager.dirty_of_none hf] at hd
        cases hd
      · exact (h.cached p _ (BufferPoolManager.content_of_pageFrames hf)).1 hheader
  · rename_i hne
    simp only at hne
    obtain ⟨f, hf⟩ := h.present pageId (List.mem_cons_self ..) hne
    rw [← hid] at hf
    obtain ⟨bpm, hrun, hframes, heffect⟩ := BufferPoolManager.restorePage_effect h.inv hf
      (by rw [hid]; exact h.not_pinned hpin)
    rw [hid, ← hcommitted hne] at heffect
    exact Proc.Yields.intro (onPool_run hrun)
      ⟨rfl, h.step hne heffect fun p _ => congrFun hframes p⟩

theorem Rolling.discard (h : Rolling base live (pageId :: rest) pager)
    (hne : pageId ≠ headerPageId) (hnone : base.committedPage pageId = none)
    (hpin : pageId ∉ base.pinned live) :
    (onPool (BufferPoolManager.discardPage pageId)).Yields pager fun r pager' =>
      r = .ok () ∧ Rolling base live rest pager' := by
  obtain ⟨f, hf⟩ := h.present pageId (List.mem_cons_self ..) hne
  have hrun := BufferPoolManager.discardPage_run h.inv hf (h.not_pinned hpin)
  have heffect := BufferPoolManager.withoutPage_effect h.inv hf (h.not_pinned hpin)
  rw [← hnone] at heffect
  exact Proc.Yields.intro (onPool_run hrun)
    ⟨rfl, h.step hne heffect fun p hp => Function.update_of_ne hp ..⟩

end Rolling

section Rollback

variable (order : IterationOrder PageId)

/-- A page that existed when the transaction began. -/
theorem Inv.isOriginal_iff (h : pager.Inv live) {pageId : PageId} :
    pager.abs.IsOriginal pageId ↔
      pageId ≠ headerPageId ∧ pageId ∈ pager.transactionState.originalPages := by
  show pageId ∈ pager.transactionState.dirtyPageIds ∧ pageId ≠ headerPageId ∧
    pageId.toNat < pager.committedHeader.pageCount.toNat ↔ _
  rw [h.transaction.dirty_iff]
  constructor
  · rintro ⟨hnew | hold, hne, hlt⟩
    · have := ((h.transaction.new_iff pageId).mp hnew).1
      omega
    · exact ⟨hne, hold⟩
  · rintro ⟨hne, hold⟩
    obtain ⟨page, hpage⟩ := Option.isSome_iff_exists.mp (AList.lookup_isSome.mpr hold)
    exact ⟨.inr hold, hne, (h.transaction.original pageId page hpage).2.1⟩

theorem Inv.pageFrames_of_dirty (h : pager.Inv live) {pageId : PageId}
    (hmem : pageId ∈ pager.transactionState.dirtyPageIds) (hne : pageId ≠ headerPageId) :
    ∃ f, pager.bpm.pageFrames pageId = some f := by
  obtain ⟨data, hdata⟩ := h.pool.content_of_dirty hmem hne
  exact pageFrames_of_content hdata

/-- The first loop finds out whether the original of a pinned page would have
to be put back. -/
theorem checkOriginals_run (h : pager.Inv live) :
    (∃ pageId ∈ pager.pinned live, pager.abs.IsOriginal pageId) ∧
        (Proc.forEach checkOriginal
          (order.visitEntries pager.transactionState.originalPages)).run pager =
          (.error (.InternalError "Cannot restore page: page is pinned"), pager) ∨
      (∀ pageId ∈ pager.pinned live, ¬pager.abs.IsOriginal pageId) ∧
        (Proc.forEach checkOriginal
          (order.visitEntries pager.transactionState.originalPages)).run pager =
          (.ok (), pager) := by
  have hcheck (entry : PageId × Page)
      (hentry : entry ∈ order.visitEntries pager.transactionState.originalPages) :
      (checkOriginal entry).run pager =
        (if entry.1 ≠ headerPageId ∧ entry.1 ∈ pager.pinned live then
          .error (.InternalError "Cannot restore page: page is pinned") else .ok (), pager) := by
    obtain ⟨pageId, page⟩ := entry
    have hlookup := order.mem_visitEntries.mp hentry
    obtain ⟨hid, hlt, himage, -⟩ := h.transaction.original pageId page hlookup
    have hnew : pageId ∉ pager.transactionState.newPageIds := fun hnew => by
      have := ((h.transaction.new_iff pageId).mp hnew).1
      omega
    rw [checkOriginal, Proc.get_bind_run,
      Proc.bind_run_ok (Proc.failIf_run_of_not pager (by simp [hid]) _),
      Proc.bind_run_ok (Proc.failIf_run_of_not pager hnew _)]
    by_cases hheader : pageId = headerPageId
    · rw [if_pos hheader, if_neg fun hc => hc.1 hheader, himage hheader,
        DatabaseHeader.decode_image h.transaction.committedHeader]
      rfl
    · have hold : pageId ∈ pager.transactionState.originalPages :=
        AList.lookup_isSome.mp (by rw [hlookup]; rfl)
      obtain ⟨f, hf⟩ := h.pageFrames_of_dirty
        ((h.transaction.dirty_iff pageId).mpr (.inr hold)) hheader
      rw [← hid] at hf
      rw [if_neg hheader, onPool_run (BufferPoolManager.canRestorePage_run h.pool.inv hf)]
      have hiff : (∃ g ∈ live.map PagePin.frameId, pager.bpm.pageId g = page.id) ↔
          pageId ≠ headerPageId ∧ pageId ∈ pager.pinned live := by
        rw [hid, ← mem_pinned]
        exact ⟨fun hm => ⟨hheader, hm⟩, And.right⟩
      by_cases hc : ∃ g ∈ live.map PagePin.frameId, pager.bpm.pageId g = page.id
      · rw [failIf_of hc, if_pos (hiff.mp hc)]
        rfl
      · rw [failIf_of_not hc, if_neg (mt hiff.mpr hc)]
        rfl
  obtain ⟨⟨entry, hentry, hne, hpin⟩, hrun⟩ | ⟨hall, hrun⟩ :=
    Proc.forEach_checks (c := fun entry : PageId × Page =>
      entry.1 ≠ headerPageId ∧ entry.1 ∈ pager.pinned live)
      (fun entry hentry hc => (hcheck entry hentry).trans (by rw [if_pos hc]))
      (fun entry hentry hc => (hcheck entry hentry).trans (by rw [if_neg hc]))
  · refine .inl ⟨⟨entry.1, hpin, h.isOriginal_iff.mpr ⟨hne, ?_⟩⟩, hrun⟩
    exact AList.lookup_isSome.mp (by rw [order.mem_visitEntries.mp hentry]; rfl)
  · refine .inr ⟨fun pageId hpin horiginal => ?_, hrun⟩
    obtain ⟨hne, hold⟩ := h.isOriginal_iff.mp horiginal
    obtain ⟨page, hpage⟩ := Option.isSome_iff_exists.mp (AList.lookup_isSome.mpr hold)
    exact hall (pageId, page) (order.mem_visitEntries.mpr hpage) ⟨hne, hpin⟩

/-- The second loop finds out whether a pinned page would have to go. -/
theorem checkNewPages_run (h : pager.Inv live) :
    (∃ pageId ∈ pager.pinned live, pageId ∈ pager.transactionState.newPageIds) ∧
        (Proc.forEach (fun pageId => onPool (BufferPoolManager.canDiscardPage pageId))
          (order.visit pager.transactionState.newPageIds)).run pager =
          (.error (.InternalError "Cannot discard page: page is pinned"), pager) ∨
      (∀ pageId ∈ pager.pinned live, pageId ∉ pager.transactionState.newPageIds) ∧
        (Proc.forEach (fun pageId => onPool (BufferPoolManager.canDiscardPage pageId))
          (order.visit pager.transactionState.newPageIds)).run pager = (.ok (), pager) := by
  have hcheck (pageId : PageId) (hmem : pageId ∈ order.visit pager.transactionState.newPageIds) :
      (onPool (BufferPoolManager.canDiscardPage pageId)).run pager =
        (if pageId ∈ pager.pinned live then
          .error (.InternalError "Cannot discard page: page is pinned") else .ok (), pager) := by
    have hnew := order.mem_visit.mp hmem
    have hne : pageId ≠ headerPageId := fun heq => h.transaction.header_not_new (heq ▸ hnew)
    obtain ⟨f, hf⟩ := h.pageFrames_of_dirty ((h.transaction.dirty_iff pageId).mpr (.inl hnew)) hne
    rw [onPool_run (BufferPoolManager.canDiscardPage_run h.pool.inv hf)]
    by_cases hc : ∃ g ∈ live.map PagePin.frameId, pager.bpm.pageId g = pageId
    · rw [failIf_of hc, if_pos (mem_pinned.mpr hc)]
      rfl
    · rw [failIf_of_not hc, if_neg (mt mem_pinned.mp hc)]
      rfl
  obtain ⟨⟨pageId, hmem, hpin⟩, hrun⟩ | ⟨hall, hrun⟩ :=
    Proc.forEach_checks (c := fun pageId => pageId ∈ pager.pinned live)
      (fun pageId hmem hc => (hcheck pageId hmem).trans (by rw [if_pos hc]))
      (fun pageId hmem hc => (hcheck pageId hmem).trans (by rw [if_neg hc]))
  · exact .inl ⟨⟨pageId, hpin, order.mem_visit.mp hmem⟩, hrun⟩
  · exact .inr ⟨fun pageId hpin hnew => hall pageId (order.mem_visit.mpr hnew) hpin, hrun⟩

/-- The two loops that put the pages back. -/
theorem restore_yields (h : pager.Inv live)
    (hunpinned : ∀ pageId ∈ pager.pinned live, pageId ∉ pager.transactionState.dirtyPageIds) :
    (do
      Proc.forEach restoreOriginal (order.visitEntries pager.transactionState.originalPages)
      Proc.forEach (fun pageId => onPool (BufferPoolManager.discardPage pageId))
        (order.visit pager.transactionState.newPageIds) :
          Proc Status Pager Unit).Yields pager fun r pager' =>
      r = .ok () ∧ Rolling pager live [] pager' := by
  set entries := order.visitEntries pager.transactionState.originalPages
  set newPageIds := order.visit pager.transactionState.newPageIds
  have hentries {entry : PageId × Page} (hentry : entry ∈ entries) :
      pager.transactionState.originalPages.lookup entry.1 = some entry.2 :=
    order.mem_visitEntries.mp hentry
  have hdirty {pageId : PageId} : pageId ∈ entries.map Prod.fst ++ newPageIds ↔
      pageId ∈ pager.transactionState.dirtyPageIds := by
    rw [h.transaction.dirty_iff, List.mem_append, order.map_fst_visitEntries, order.mem_visit,
      order.mem_visit, ← AList.mem_keys]
    exact or_comm
  have hstart : Rolling pager live (entries.map Prod.fst ++ newPageIds) pager := by
    refine ⟨rfl, h.pool.inv, fun _ _ => rfl, ?_, fun pageId hmem hne =>
      h.pageFrames_of_dirty (hdirty.mp hmem) hne, fun pageId data hdata => ?_,
      fun pageId hd => hdirty.mpr (h.pool.frameDirty pageId hd), fun hmem => ?_⟩
    · refine List.nodup_append.mpr ⟨order.nodup_map_fst_visitEntries _,
        order.nodup_visit h.transaction.newNodup, fun pageId hold pageId' hnew heq => ?_⟩
      subst heq
      rw [order.map_fst_visitEntries, order.mem_visit, ← AList.mem_keys] at hold
      obtain ⟨page, hpage⟩ := Option.isSome_iff_exists.mp (AList.lookup_isSome.mpr hold)
      have hlt := (h.transaction.original pageId page hpage).2.1
      have hge := ((h.transaction.new_iff pageId).mp (order.mem_visit.mp hnew)).1
      omega
    · exact (h.pool.cached pageId data hdata).imp_right fun hor => hor.imp_left hdirty.mpr
    · exact h.transaction.headerClean fun hold =>
        hmem (hdirty.mpr ((h.transaction.dirty_iff _).mpr (.inr hold)))
  have hrestore : (Proc.forEach restoreOriginal entries).Yields pager fun r pager' =>
      r = .ok () ∧ Rolling pager live newPageIds pager' := by
    have hloop := Proc.yields_forEach_ok restoreOriginal entries
      (fun rest p => Rolling pager live (rest.map Prod.fst ++ newPageIds) p ∧
        ∀ entry ∈ rest, entry ∈ entries) ⟨hstart, fun _ hm => hm⟩
      (fun entry rest p hp => ?_)
    · exact hloop.mono fun r p hp => ⟨hp.1, hp.2.1⟩
    · have hmem := hp.2 entry (List.mem_cons_self ..)
      refine (hp.1.restore h.transaction (hentries hmem) fun hpin => hunpinned _ hpin ?_).mono
        fun r p' hp' => ⟨hp'.1, hp'.2, fun e he => hp.2 e (List.mem_cons_of_mem _ he)⟩
      exact hdirty.mp (List.mem_append_left _ (List.mem_map_of_mem hmem))
  refine hrestore.bind (fun _ p hp => ?_) fun _ _ hp => by cases hp.1
  have hloop := Proc.yields_forEach_ok
    (fun pageId => onPool (BufferPoolManager.discardPage pageId)) newPageIds
    (fun rest p => Rolling pager live rest p ∧ ∀ pageId ∈ rest, pageId ∈ newPageIds)
    ⟨hp.2, fun _ hm => hm⟩ (fun pageId rest p hp => ?_)
  · exact hloop.mono fun r p hp => ⟨hp.1, hp.2.1⟩
  · have hmem := hp.2 pageId (List.mem_cons_self ..)
    have hnew := order.mem_visit.mp hmem
    have hge := ((h.transaction.new_iff pageId).mp hnew).1
    refine (hp.1.discard (fun heq => h.transaction.header_not_new (heq ▸ hnew))
      (committedPage_eq_none h.file hge) fun hpin => hunpinned _ hpin ?_).mono
      fun r p' hp' => ⟨hp'.1, hp'.2, fun e he => hp.2 e (List.mem_cons_of_mem _ he)⟩
    exact hdirty.mp (List.mem_append_right _ hmem)

/-- A rollback leaves the committed pages and no transaction, or the pager as it
was. -/
theorem rollbackTransaction_yields (h : pager.Inv live) :
    (rollbackTransaction order).Yields pager fun r pager' =>
      SameStore pager pager' ∧ SamePins live pager pager' ∧ pager'.Inv live ∧
        (FlatPager.rollbackTransaction (pager.pinned live)).run pager.abs = (r, pager'.abs) ∧
        ∀ e, r = .error e → pager' = pager := by
  have hstatus : pager.abs.status = pager.transactionState.status := rfl
  have hrefused {e : Status}
      (hflat : (FlatPager.rollbackTransaction (pager.pinned live)).run pager.abs =
        (.error e, pager.abs)) :
      SameStore pager pager ∧ SamePins live pager pager ∧ pager.Inv live ∧
        (FlatPager.rollbackTransaction (pager.pinned live)).run pager.abs =
          (.error e, pager.abs) ∧
        ∀ e', (Except.error e : Except Status Unit) = .error e' → pager = pager :=
    ⟨.refl _, .refl _ _, h, hflat, fun _ _ => rfl⟩
  unfold Proc.Yields
  rw [rollbackTransaction, Proc.get_bind_run,
    Proc.bind_run_ok (Proc.failIf_run_of_not pager (by simp [h.isOpen]) _)]
  by_cases hinactive : pager.transactionState.status = .inactive
  · rw [Proc.bind_run_error (Proc.failIf_run_of pager (by simp [hinactive]) _)]
    refine hrefused ?_
    rw [FlatPager.rollbackTransaction, Proc.get_bind_run,
      Proc.bind_run_error (Proc.failIf_run_of pager.abs (by simp [hstatus, hinactive]) _)]
  rw [Proc.bind_run_ok (Proc.failIf_run_of_not pager (by simp [hinactive]) _)]
  by_cases hunresolved : pager.transactionState.status = .unresolved
  · rw [Proc.bind_run_error (Proc.failIf_run_of pager (by simp [hunresolved]) _)]
    refine hrefused ?_
    rw [FlatPager.rollbackTransaction, Proc.get_bind_run,
      Proc.bind_run_ok (Proc.failIf_run_of_not pager.abs (by simp [hstatus, hinactive]) _),
      Proc.bind_run_error (Proc.failIf_run_of pager.abs (by simp [hstatus, hunresolved]) _)]
  rw [Proc.bind_run_ok (Proc.failIf_run_of_not pager (by simp [hunresolved]) _)]
  have hflat : (FlatPager.rollbackTransaction (pager.pinned live)).run pager.abs = (do
      Proc.failIf (∃ pageId ∈ pager.pinned live, pager.abs.IsOriginal pageId)
        (.InternalError "Cannot restore page: page is pinned")
      Proc.failIf (∃ pageId ∈ pager.pinned live, pageId ∈ pager.abs.dirtyPageIds)
        (.InternalError "Cannot discard page: page is pinned")
      Proc.modify fun flat => .settled flat.committed : Proc Status FlatPager Unit).run
        pager.abs := by
    rw [FlatPager.rollbackTransaction, Proc.get_bind_run,
      Proc.bind_run_ok (Proc.failIf_run_of_not pager.abs (by simp [hstatus, hinactive]) _),
      Proc.bind_run_ok (Proc.failIf_run_of_not pager.abs (by simp [hstatus, hunresolved]) _)]
  obtain ⟨hpinned, hrun⟩ | ⟨horiginals, hrun⟩ := checkOriginals_run order h
  · rw [Proc.bind_run_error hrun]
    refine hrefused (hflat.trans ?_)
    rw [Proc.bind_run_error (Proc.failIf_run_of pager.abs hpinned _)]
  rw [Proc.bind_run_ok hrun]
  have hnotOriginal : ¬∃ pageId ∈ pager.pinned live, pager.abs.IsOriginal pageId :=
    by
      rintro ⟨pageId, hpin, horiginal⟩
      exact horiginals pageId hpin horiginal
  rw [Proc.bind_run_ok (Proc.failIf_run_of_not pager.abs hnotOriginal _)] at hflat
  obtain ⟨⟨pageId, hpin, hnew⟩, hrun⟩ | ⟨hnews, hrun⟩ := checkNewPages_run order h
  · rw [Proc.bind_run_error hrun]
    refine hrefused (hflat.trans ?_)
    have hdirty : ∃ pageId ∈ pager.pinned live, pageId ∈ pager.abs.dirtyPageIds :=
      ⟨pageId, hpin, (h.transaction.dirty_iff pageId).mpr (.inl hnew)⟩
    rw [Proc.bind_run_error (Proc.failIf_run_of pager.abs hdirty _)]
  rw [Proc.bind_run_ok hrun]
  have hunpinned : ∀ pageId ∈ pager.pinned live, pageId ∉ pager.transactionState.dirtyPageIds := by
    intro pageId hpin hmem
    obtain hnew | hold := (h.transaction.dirty_iff pageId).mp hmem
    · exact hnews pageId hpin hnew
    · exact horiginals pageId hpin (h.isOriginal_iff.mpr
        ⟨fun heq => h.header_not_pinned (heq ▸ hpin), hold⟩)
  have hclean : ¬∃ pageId ∈ pager.pinned live, pageId ∈ pager.abs.dirtyPageIds :=
    by
      rintro ⟨pageId, hpin, hmem⟩
      exact hunpinned pageId hpin hmem
  rw [Proc.bind_run_ok (Proc.failIf_run_of_not pager.abs hclean _), Proc.modify_run] at hflat
  rw [← Proc.bind_assoc_run]
  have hrestore := restore_yields order h hunpinned
  unfold Proc.Yields at hrestore
  rcases hrun : (do
      Proc.forEach restoreOriginal (order.visitEntries pager.transactionState.originalPages)
      Proc.forEach (fun pageId => onPool (BufferPoolManager.discardPage pageId))
        (order.visit pager.transactionState.newPageIds)).run pager with ⟨r, pager₁⟩
  rw [hrun] at hrestore
  obtain ⟨rfl, hrolling⟩ : r = .ok () ∧ Rolling pager live [] pager₁ := hrestore
  have hsame : SameStore pager pager₁ := by
    rw [hrolling.same]
    exact ⟨.refl _, rfl, rfl, rfl⟩
  have hheader : pager₁.dbHeader = pager₁.committedHeader :=
    (hrolling.header List.not_mem_nil).trans hsame.committedHeader.symm
  have hpage := hsame.committedPage
  obtain ⟨hinv, habs⟩ := Inv.settle pager₁ live
    ((congrArg Pager.closed hrolling.same).trans h.isOpen) (h.file.of_sameStore hsame)
    (hsame.committedHeader.symm ▸ h.transaction.committedHeader) hheader hrolling.inv
    (fun pageId data hdata => by
      obtain ⟨hne, hmem | hcommitted⟩ := hrolling.cached pageId data hdata
      · cases hmem
      · exact ⟨hne, by rw [hpage]; exact hcommitted⟩)
    (fun pageId => Bool.not_eq_true _ ▸ fun hd => List.not_mem_nil (hrolling.dirty pageId hd))
    (fun pin hpin => Bool.not_eq_true _ ▸ fun hd => hunpinned _
      (List.mem_map_of_mem hpin) (h.pool.pinDirty pin hpin hd))
  rw [Proc.bind_run_ok hrun]
  refine ⟨⟨hsame.disk, hsame.wal, hsame.recovered, hsame.committedHeader⟩,
    fun pin hpin => hrolling.pins _ (List.mem_map_of_mem hpin), hinv, hflat.trans ?_,
    fun e he => by cases he⟩
  have hsettled : pager₁.settle.abs = .settled pager.abs.committed := by
    rw [habs, hpage, hsame.committedHeader]
    rfl
  rw [← hsettled]
  rfl

end Rollback

end Pager

end DanDB.Storage
