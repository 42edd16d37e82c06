import DanDB.Storage.Overflow
import DanDB.Storage.Residency
import DanDB.Storage.SessionRollback

/-!
# The pages of a transaction

What a transaction has recorded about its pages accounts for every change since
it began, and keeps the changed pages in the pool until it ends.
-/

namespace DanDB.Storage

open DanDB.Core Platform Wal BufferPool

namespace FlatPager

/-- The answers of a commit. -/
theorem commitTransaction_reply {flat flat' : FlatPager} {pinned : List PageId}
    {r : Except Status Unit} (hstatus : flat.status = .active ∨ flat.status = .failed)
    (h : (commitTransaction pinned).run flat = (r, flat')) :
    r = .ok () ∨
      r = .error (.TransactionError "Cannot commit transaction: dirty page is still pinned") ∧
        (∃ pageId ∈ pinned, pageId ∈ flat.dirtyPageIds) ∨
      r = .error (.TransactionError "Cannot commit transaction: transaction is failed") ∧
        flat.status = .failed := by
  obtain hactive | hfailed := hstatus
  · rw [commitTransaction, Proc.bind_run_ok (requireActive_active hactive _),
      Proc.get_bind_run] at h
    by_cases hpinned : ∃ pageId ∈ flat.dirtyPageIds, pageId ≠ headerPageId ∧ pageId ∈ pinned
    · rw [Proc.bind_run_error (Proc.failIf_run_of flat hpinned _)] at h
      obtain ⟨pageId, hdirty, -, hpin⟩ := hpinned
      exact .inr (.inl ⟨(Prod.mk.inj h).1.symm, pageId, hpin, hdirty⟩)
    · rw [Proc.bind_run_ok (Proc.failIf_run_of_not flat hpinned _)] at h
      exact .inl (Prod.mk.inj h).1.symm
  · rw [commitTransaction, requireActive, Proc.bind_run_error
      (show _ = (Except.error (Status.TransactionError
        "Cannot commit transaction: transaction is failed"), flat) by
          rw [Proc.get_bind_run,
            Proc.bind_run_ok (Proc.failIf_run_of_not flat (by rw [hfailed]; decide) _),
            Proc.bind_run_error (Proc.failIf_run_of flat hfailed _)]
          rfl)] at h
    exact .inr (.inr ⟨(Prod.mk.inj h).1.symm, hfailed⟩)

/-- The answers of a rollback. -/
theorem rollbackTransaction_reply {flat flat' : FlatPager} {pinned : List PageId}
    {r : Except Status Unit} (hstatus : flat.status = .active ∨ flat.status = .failed)
    (h : (rollbackTransaction pinned).run flat = (r, flat')) :
    r = .ok () ∨
      (r = .error (.InternalError "Cannot restore page: page is pinned") ∨
        r = .error (.InternalError "Cannot discard page: page is pinned")) ∧
      ∃ pageId ∈ pinned, pageId ∈ flat.dirtyPageIds := by
  have hinactive : flat.status ≠ .inactive := by rcases hstatus with h | h <;> rw [h] <;> decide
  have hunresolved : flat.status ≠ .unresolved := by
    rcases hstatus with h | h <;> rw [h] <;> decide
  rw [rollbackTransaction, Proc.get_bind_run,
    Proc.bind_run_ok (Proc.failIf_run_of_not flat hinactive _),
    Proc.bind_run_ok (Proc.failIf_run_of_not flat hunresolved _)] at h
  by_cases horiginal : ∃ pageId ∈ pinned, flat.IsOriginal pageId
  · rw [Proc.bind_run_error (Proc.failIf_run_of flat horiginal _)] at h
    obtain ⟨pageId, hpin, hdirty⟩ := horiginal
    exact .inr ⟨.inl (Prod.mk.inj h).1.symm, pageId, hpin, hdirty.1⟩
  rw [Proc.bind_run_ok (Proc.failIf_run_of_not flat horiginal _)] at h
  by_cases hdirty : ∃ pageId ∈ pinned, pageId ∈ flat.dirtyPageIds
  · rw [Proc.bind_run_error (Proc.failIf_run_of flat hdirty _)] at h
    exact .inr ⟨.inr (Prod.mk.inj h).1.symm, hdirty⟩
  · rw [Proc.bind_run_ok (Proc.failIf_run_of_not flat hdirty _)] at h
    exact .inl (Prod.mk.inj h).1.symm

end FlatPager

namespace Session

variable {s s' s₀ : Session} {c : Call} {r : Reply} {trace : List (Call × Reply)}

/-! ## Since the transaction began -/

/-- The state right after a transaction began and the calls since then. -/
structure Began (s₀ : Session) (trace : List (Call × Reply)) (s : Session) : Prop where
  begins : ∃ before, Reachable before ∧ before.Step .beginTransaction (.ok none) s₀
  runs : Runs Step s₀ trace s
  lasts : ∀ entry ∈ trace, ¬Ends entry

theorem Began.step (h : Began s₀ trace s) (hstep : s.Step c r s') (hends : ¬Ends (c, r)) :
    Began s₀ (trace ++ [(c, r)]) s' := by
  refine ⟨h.begins, h.runs.append (.cons hstep (.nil s')), fun entry hmem => ?_⟩
  obtain hmem | hmem := List.mem_append.mp hmem
  · exact h.lasts entry hmem
  · rw [List.mem_singleton.mp hmem]
    exact hends

/-- The transaction of a session has begun. -/
theorem Reachable.began (h : Reachable s)
    (hstatus : s.abs.flat.status = .active ∨ s.abs.flat.status = .failed) :
    ∃ s₀ trace, Began s₀ trace s := by
  have hstart {pager : Pager} {view : PageArray} {log : List LogTransaction}
      (hshows : Pager.Shows view log pager) :
      ¬((start pager).abs.flat.status = .active ∨ (start pager).abs.flat.status = .failed) := by
    have hflat : (start pager).abs.flat = .settled view := hshows.abs
    rw [hflat]
    rintro (h | h) <;> cases h
  induction h with
  | @create path capacity databaseId pager h =>
    obtain ⟨pager', hcreate, hshows⟩ :=
      Pager.createEmpty_eq path (capacity_pos_of_createEmpty h) databaseId
    obtain rfl : pager = pager' := Except.ok.inj (h.symm.trans hcreate)
    exact absurd hstatus (hstart hshows)
  | interrupted hwal h => exact absurd hstatus (hstart (shows_of_interrupted hwal h))
  | @step s s' c r h hstep ih =>
    have hknown : s'.abs.flat.status ≠ .unresolved := by
      rcases hstatus with h | h <;> rw [h] <;> decide
    cases h.sound.statusStep hstep hknown with
    | same hends hsame =>
      rw [hsame] at hstatus
      obtain ⟨s₀, trace, hbegan⟩ := ih hstatus
      exact ⟨s₀, _, hbegan.step hstep hends⟩
    | begins hc hr _ _ =>
      subst hc hr
      exact ⟨s', [], ⟨s, h, hstep⟩, .nil s', nofun⟩
    | ends _ hafter =>
      rw [hafter] at hstatus
      rcases hstatus with h | h <;> cases h
    | fails hends hactive hnot _ =>
      have hbefore : s.abs.flat.status = .active ∨ s.abs.flat.status = .failed := by
        cases hstate : s.abs.flat.status with
        | inactive => exact absurd hstate hactive
        | active => exact .inl rfl
        | failed => exact .inr rfl
        | unresolved => exact absurd hstate hnot
      obtain ⟨s₀, trace, hbegan⟩ := ih hbefore
      exact ⟨s₀, _, hbegan.step hstep hends⟩
  | @reopen s order path capacity pager h hmax hopen _ =>
    obtain ⟨log, pager', view, hopen', hshows, -⟩ :=
      h.durable.open_files order path (capacity_pos_of_open hopen) hmax
    obtain rfl : pager = pager' := Except.ok.inj (hopen.symm.trans hopen')
    exact absurd hstatus (hstart hshows)

/-- The pages are still committed as they were when the transaction began. -/
theorem Began.committed (h : Began s₀ trace s) :
    s₀.abs.flat.active = s.abs.flat.committed := by
  obtain ⟨before, hreach, hbegin⟩ := h.begins
  obtain ⟨hsettled, habs⟩ := hreach.sound.of_begin hbegin
  have hcommitted : s.abs.flat.committed = s₀.abs.flat.committed :=
    Sound.runs_committed h.runs (hreach.step hbegin).sound fun entry hmem hcommits =>
      h.lasts entry hmem (by
        obtain ⟨order, page, rfl⟩ := hcommits
        exact ⟨order, page, .inl rfl⟩)
  have hactive : s₀.abs.flat.active = s₀.abs.flat.committed := by
    rw [habs, hsettled]
    rfl
  exact hactive.trans hcommitted.symm

/-! ## What the transaction has recorded -/

/-- What is expected of the records of a transaction that began with `s₀`. -/
structure Accounts (s₀ s : Session) : Prop where
  /-- Each page of the transaction is recorded once, either with its original or
  as a new one. -/
  nodup : s.pager.transactionState.dirtyPageIds.Nodup
  dirty_iff : ∀ pageId, pageId ∈ s.pager.transactionState.dirtyPageIds ↔
    pageId ∈ s.pager.transactionState.originalPages ∨
      pageId ∈ s.pager.transactionState.newPageIds
  disjoint : ∀ pageId ∈ s.pager.transactionState.originalPages,
    pageId ∉ s.pager.transactionState.newPageIds
  /-- The original is the page as it was in the beginning. -/
  original : ∀ pageId page, s.pager.transactionState.originalPages.lookup pageId = some page →
    page.id = pageId ∧ (pageId = headerPageId → page.data = s₀.pager.dbHeader.image) ∧
      (pageId ≠ headerPageId → s₀.pager.activePage pageId = some page.data)
  /-- A page of the transaction has a frame, and keeps it. -/
  resident : ∀ pageId ∈ s.pager.transactionState.dirtyPageIds, pageId ≠ headerPageId →
    ∃ frameId, s.pager.bpm.pageFrames pageId = some frameId ∧
      ((s.pager.bpm.frames frameId).isDirty = true ∨ ∃ pin ∈ s.handles, pin.frameId = frameId) ∧
      frameId ∉ s.pager.bpm.lru.lru
  /-- Every other page is as it was committed. -/
  unchanged : ∀ pageId, pageId ∉ s.pager.transactionState.dirtyPageIds →
    s.pager.activePage pageId = s.pager.committedPage pageId ∧
      (pageId = headerPageId → s.pager.dbHeader = s.pager.committedHeader)
  /-- The images that a commit writes to the log are those of all pages of the
  transaction. -/
  snapshot : ∀ order : IterationOrder PageId, ∃ pages pager',
    (Proc.collect Pager.dirtyPageSnapshot
      (order.visit s.pager.transactionState.dirtyPageIds)).run s.pager = (.ok pages, pager') ∧
    (pages.map Page.id).Perm s.pager.transactionState.dirtyPageIds ∧
    ∀ page ∈ pages, s.pager.Current page
  /-- A commit is refused because a page is still pinned or the transaction is
  failed, and fails otherwise only with the log. -/
  commit : ∀ order r s', s.Step (.commitTransaction order) r s' → r = .ok none ∨
    r = .error (.TransactionError "Cannot commit transaction: dirty page is still pinned") ∧
      (∃ pin ∈ s.handles, s.pager.pinId pin ∈ s.pager.transactionState.dirtyPageIds) ∨
    r = .error (.TransactionError "Cannot commit transaction: transaction is failed") ∧
      s.pager.transactionState.status = .failed ∨
    s.pager.walManager.fileHandle.faults ≠ [] ∧ (∃ e, r = .error e) ∧
      s'.pager.transactionState.status = .unresolved
  /-- A rollback is refused because a page is still pinned, and never fails. -/
  rollback : ∀ order r s', s.Step (.rollbackTransaction order) r s' → r = .ok none ∨
    (r = .error (.InternalError "Cannot restore page: page is pinned") ∨
        r = .error (.InternalError "Cannot discard page: page is pinned")) ∧
      ∃ pin ∈ s.handles, s.pager.pinId pin ∈ s.pager.transactionState.dirtyPageIds

theorem resident_of_inv {pager : Pager} {live : List PagePin} (h : pager.Inv live)
    {pageId : PageId} (hmem : pageId ∈ pager.transactionState.dirtyPageIds)
    (hne : pageId ≠ headerPageId) : ∃ frameId, pager.bpm.pageFrames pageId = some frameId ∧
      ((pager.bpm.frames frameId).isDirty = true ∨ ∃ pin ∈ live, pin.frameId = frameId) ∧
      frameId ∉ pager.bpm.lru.lru := by
  obtain hdirty | ⟨pin, hpin, -, hid⟩ := h.pool.held pageId hmem hne
  · rcases hframe : pager.bpm.pageFrames pageId with _ | frameId
    · rw [BufferPoolManager.dirty_of_none hframe] at hdirty
      cases hdirty
    · have hset : (pager.bpm.frames frameId).isDirty = true := by
        rw [BufferPoolManager.dirty, hframe] at hdirty
        exact hdirty
      refine ⟨frameId, rfl, .inl hset, fun hlru => ?_⟩
      obtain ⟨-, -, -, hclean⟩ := (h.pool.inv.evictable frameId).mp hlru
      rw [hset] at hclean
      cases hclean
  · have hfid : pin.frameId ∈ live.map PagePin.frameId := List.mem_map_of_mem hpin
    have hframe := h.pool.inv.pageFrames_pageId hfid
    rw [show pager.bpm.pageId pin.frameId = pageId from hid] at hframe
    refine ⟨pin.frameId, hframe, .inr ⟨pin, hpin, rfl⟩, fun hlru => ?_⟩
    obtain ⟨hlt, -, hzero, -⟩ := (h.pool.inv.evictable pin.frameId).mp hlru
    exact (h.pool.inv.pinCount_eq_zero hlt).mp hzero hfid

/-- A page that a handle points to, seen from the session. -/
theorem exists_handle {pageId : PageId} (h : pageId ∈ s.abs.pinned) :
    ∃ pin ∈ s.handles, s.pager.pinId pin = pageId := by
  rw [pinned_abs, Pager.pinned] at h
  exact List.mem_map.mp h

theorem Sound.commit_reply (h : s.Sound)
    (hstatus : s.abs.flat.status = .active ∨ s.abs.flat.status = .failed)
    {order : IterationOrder PageId} (hstep : s.Step (.commitTransaction order) r s') :
    r = .ok none ∨
    r = .error (.TransactionError "Cannot commit transaction: dirty page is still pinned") ∧
      (∃ pin ∈ s.handles, s.pager.pinId pin ∈ s.pager.transactionState.dirtyPageIds) ∨
    r = .error (.TransactionError "Cannot commit transaction: transaction is failed") ∧
      s.pager.transactionState.status = .failed ∨
    s.pager.walManager.fileHandle.faults ≠ [] ∧ (∃ e, r = .error e) ∧
      s'.pager.transactionState.status = .unresolved := by
  obtain ⟨log, hlog⟩ := h.exists_log
  have hcommit := Pager.commitTransaction_yields order h.inv fun hactive =>
    (hlog (by rw [hactive]; decide)).1
  unfold Proc.Yields at hcommit
  rw [Step, call, Session.perform] at hstep
  rcases hrun : (Pager.commitTransaction order).run s.pager with ⟨e | u, pager⟩ <;>
    rw [hrun] at hcommit hstep <;> cases hstep
  · obtain ⟨-, -, -, -, ⟨-, -, hflat⟩ | ⟨hfaults, habs, -⟩⟩ := hcommit
    · rw [← pinned_abs] at hflat
      obtain hok | ⟨he, pageId, hpin, hdirty⟩ | ⟨he, hfailed⟩ :=
        FlatPager.commitTransaction_reply hstatus hflat
      · cases hok
      · cases he
        obtain ⟨pin, hmem, rfl⟩ := exists_handle hpin
        exact .inr (.inl ⟨rfl, pin, hmem, hdirty⟩)
      · cases he
        exact .inr (.inr (.inl ⟨rfl, hfailed⟩))
    · exact .inr (.inr (.inr ⟨hfaults, ⟨e, rfl⟩, congrArg FlatPager.status habs⟩))
  · exact .inl rfl

theorem Sound.rollback_reply (h : s.Sound)
    (hstatus : s.abs.flat.status = .active ∨ s.abs.flat.status = .failed)
    {order : IterationOrder PageId} (hstep : s.Step (.rollbackTransaction order) r s') :
    r = .ok none ∨
    (r = .error (.InternalError "Cannot restore page: page is pinned") ∨
        r = .error (.InternalError "Cannot discard page: page is pinned")) ∧
      ∃ pin ∈ s.handles, s.pager.pinId pin ∈ s.pager.transactionState.dirtyPageIds := by
  have hrollback := Pager.rollbackTransaction_yields order h.inv
  unfold Proc.Yields at hrollback
  obtain ⟨-, -, -, hflat, -⟩ := hrollback
  rw [← pinned_abs] at hflat
  cases hstep
  obtain hok | ⟨he, pageId, hpin, hdirty⟩ := FlatPager.rollbackTransaction_reply hstatus hflat
  · exact .inl (congrArg answer hok)
  · obtain ⟨pin, hmem, rfl⟩ := exists_handle hpin
    exact .inr ⟨he.imp (congrArg answer) (congrArg answer), pin, hmem, hdirty⟩

/-- In every session there can be with an active or failed transaction, what the
transaction has recorded accounts for the changes since it began. -/
theorem transaction_accounting (h : Reachable s)
    (hstatus : s.pager.transactionState.status = .active ∨
      s.pager.transactionState.status = .failed) :
    ∃ s₀ trace, Began s₀ trace s ∧ Accounts s₀ s := by
  obtain ⟨s₀, trace, hbegan⟩ := h.began hstatus
  have hinv := h.sound.inv
  have hbefore := hbegan.committed
  have hheader : s₀.pager.dbHeader = s.pager.committedHeader :=
    congrArg PageArray.header hbefore
  have hpage : s₀.pager.activePage = s.pager.committedPage := congrArg PageArray.page hbefore
  refine ⟨s₀, trace, hbegan, hinv.transaction.dirtyNodup, fun pageId => ?_, fun pageId hmem => ?_,
    fun pageId page hlookup => ?_, fun pageId hmem hne => resident_of_inv hinv hmem hne,
    fun pageId hmem => ⟨hinv.activePage_of_clean hmem, fun heq => ?_⟩, fun order => ?_,
    fun order r s' hstep => h.sound.commit_reply hstatus hstep,
    fun order r s' hstep => h.sound.rollback_reply hstatus hstep⟩
  · rw [hinv.transaction.dirty_iff, or_comm]
  · obtain ⟨page, hpage⟩ := Option.isSome_iff_exists.mp (AList.lookup_isSome.mpr hmem)
    obtain ⟨-, hlt, -⟩ := hinv.transaction.original pageId page hpage
    intro hnew
    have hge := ((hinv.transaction.new_iff pageId).mp hnew).1
    omega
  · obtain ⟨hid, -, himage, hdata⟩ := hinv.transaction.original pageId page hlookup
    rw [hheader, hpage]
    exact ⟨hid, himage, hdata⟩
  · subst heq
    exact hinv.transaction.headerClean fun horiginal =>
      hmem ((hinv.transaction.dirty_iff _).mpr (.inr horiginal))
  · have hsnapshots := Pager.snapshots_yields hinv
      (fun pageId (hp : pageId ∈ order.visit s.pager.transactionState.dirtyPageIds) =>
        order.mem_visit.mp hp) fun pageId _ => (h.few pageId).trans_lt (by decide)
    unfold Proc.Yields at hsnapshots
    obtain ⟨pages, hr, hids, hcurrent, -⟩ := hsnapshots
    refine ⟨pages, _, Prod.ext hr rfl, ?_, hcurrent⟩
    rw [hids]
    exact order.perm _

/-- A transaction that has changed a page and made a new one. -/
theorem transaction_accounting_small : ∃ s₀ trace s,
    Began s₀ trace s ∧ Accounts s₀ s ∧ s.pager.transactionState.dirtyPageIds = [2, headerPageId, 1] ∧
    s₀.pager.activePage 1 = some (filled 1) ∧ s.pager.activePage 1 = some (filled 2) := by
  obtain ⟨pager, s, hcreate, hs⟩ := exists_played 4 (by decide) (by decide)
    (show FlatSession.play 4 _ [.beginTransaction, .newPage, .store 0 (filled 1), .release 0,
      .commitTransaction .insertion, .beginTransaction, .getPage 1, .mutablePage 0, .store 0 (filled 2),
      .release 0, .newPage] = some (_, _) from rfl)
  have hreach := (Reachable.create hcreate).runs hs.runs
  have hactive : s.abs.flat.status = .active := by rw [hs.abs]; rfl
  obtain ⟨s₀, trace, hbegan, haccounts⟩ := transaction_accounting hreach (.inl hactive)
  refine ⟨s₀, trace, s, hbegan, haccounts, congrArg (fun s => s.flat.dirtyPageIds) hs.abs, ?_,
    congrArg (fun s => s.flat.active.page 1) hs.abs⟩
  exact (congrArg (fun array => array.page 1) hbegan.committed).trans
    (congrArg (fun s => s.flat.committed.page 1) hs.abs)

/-- With 2^32 handles on a page that the transaction has changed, the page can leave
the pool. -/
theorem accounts_overflow : ∃ pager trace s,
    Pager.createEmpty "db" ⟨none, none⟩ 1 7 = .ok pager ∧ Runs Responds (start pager) trace s ∧
    s.pager.transactionState.status = .active ∧ ∀ s₀, ¬Accounts s₀ s := by
  obtain ⟨pager, trace, s, _, h⟩ := exists_lost .zero
  refine ⟨pager, trace, s, h.create, h.runs, h.active, fun s₀ haccounts => ?_⟩
  obtain ⟨f, hframe, -⟩ := haccounts.resident 1 h.dirty (by decide)
  rw [h.uncached] at hframe
  cases hframe

end Session

end DanDB.Storage
