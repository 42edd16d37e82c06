import DanDB.Storage.Overflow

/-!
# Rolling back

Only a commit changes the committed pages, so a rollback, which copies the
committed pages back, undoes everything since the transaction began.  A rollback
that is refused has not begun.
-/

namespace DanDB.Storage

open DanDB.Core Platform Wal BufferPool

/-- A commit that succeeds. -/
def Commits (entry : Call × Reply) : Prop :=
  ∃ order page, entry = (.commitTransaction order, .ok page)

namespace FlatSession

variable {s t : FlatSession} {c : Call} {r : Reply}

theorem perform_committed {x : Proc Status FlatPager Unit} (hx : FlatPager.KeepsCommitted x)
    (h : s.perform x = (r, t)) : t.flat.committed = s.flat.committed := by
  cases h
  exact hx s.flat

/-- Only a commit changes the committed pages. -/
theorem call_committed (h : s.call c = some (r, t)) (hcommit : ¬Commits (c, r)) :
    t.flat.committed = s.flat.committed := by
  cases c with
  | beginTransaction =>
    exact perform_committed FlatPager.keepsCommitted_beginTransaction (Option.some.inj h)
  | getPage pageId =>
    have hget := FlatPager.keepsCommitted_getPage pageId s.flat
    unfold Proc.Yields at hget
    rw [call] at h
    rcases hrun : (FlatPager.getPage pageId).run s.flat with ⟨e | data, flat⟩ <;>
      rw [hrun] at hget h <;> cases h <;> exact hget
  | newPage =>
    have hnew := FlatPager.keepsCommitted_newPage s.flat
    unfold Proc.Yields at hnew
    rw [call] at h
    rcases hrun : FlatPager.newPage.run s.flat with ⟨e | pageId, flat⟩ <;>
      rw [hrun] at hnew h <;> cases h <;> exact hnew
  | read handle =>
    obtain ⟨pin, -, heq⟩ := Option.map_eq_some_iff.mp h
    cases heq
    rfl
  | mutablePage handle =>
    obtain ⟨pin, -, heq⟩ := Option.map_eq_some_iff.mp h
    have hmark := FlatPager.keepsCommitted_markDirty pin.1 s.flat
    unfold Proc.Yields at hmark
    rcases hrun : (FlatPager.markDirty pin.1).run s.flat with ⟨e | u, flat⟩ <;>
      rw [hrun] at hmark heq <;> cases heq <;> exact hmark
  | store handle data =>
    obtain ⟨pin, -, heq⟩ := Option.bind_eq_some_iff.mp h
    split at heq
    · cases heq
      rfl
    · cases heq
  | release handle =>
    obtain ⟨pin, -, heq⟩ := Option.map_eq_some_iff.mp h
    cases heq
    rfl
  | setSystemRoots tables columns indexes indexColumns =>
    exact perform_committed (FlatPager.keepsCommitted_setSystemRoots _ _ _ _) (Option.some.inj h)
  | commitTransaction order =>
    rw [call] at h
    rcases hrun : (FlatPager.commitTransaction s.pinned).run s.flat with ⟨e | u, flat⟩ <;>
      rw [perform, hrun] at h <;> cases h
    · exact congrArg FlatPager.committed (FlatPager.commitTransaction_error hrun)
    · exact absurd ⟨order, none, rfl⟩ hcommit
  | rollbackTransaction order =>
    exact perform_committed (FlatPager.keepsCommitted_rollbackTransaction _) (Option.some.inj h)
  | markTransactionFailed =>
    exact perform_committed FlatPager.keepsCommitted_markTransactionFailed (Option.some.inj h)
  | checkpoint order =>
    rw [call] at h
    split at h
    · cases h
    · exact perform_committed FlatPager.keepsCommitted_checkpoint (Option.some.inj h)
  | setDiskFaults faults =>
    cases h
    rfl
  | setWalFaults faults =>
    cases h
    rfl

end FlatSession

/-- Without a transaction the pages are the committed ones. -/
theorem Pager.Inv.abs_of_inactive {pager : Pager} {live : List PagePin} (h : pager.Inv live)
    (hstatus : pager.transactionState.status = .inactive) :
    pager.abs = .settled pager.abs.committed := by
  have hdirty := h.transaction.inactive hstatus
  have hclean (pageId : PageId) : pageId ∉ pager.transactionState.dirtyPageIds := by
    rw [hdirty]
    exact List.not_mem_nil
  have hheader : pager.dbHeader = pager.committedHeader := h.transaction.headerClean fun hmem =>
    hclean _ ((h.transaction.dirty_iff _).mpr (.inr hmem))
  have hpage : pager.activePage = pager.committedPage := funext fun pageId =>
    h.activePage_of_clean (hclean pageId)
  rw [Pager.abs, FlatPager.settled, hheader, hpage, hstatus, hdirty]

namespace Pager

variable {pager : Pager} {pinned : List FrameId}

/-- The check of an original page changes nothing, and a page that has left the pool
does not pass it. -/
theorem checkOriginal_yields (h : pager.bpm.Inv pinned) (entry : PageId × Page) :
    (checkOriginal entry).Yields pager fun r pager' => pager' = pager ∧
      (entry.1 ≠ headerPageId → pager.bpm.pageFrames entry.1 = none → ∃ e, r = .error e) := by
  refine Proc.yields_get_bind (Proc.yields_failIf_bind (fun _ => ⟨rfl, fun _ _ => ⟨_, rfl⟩⟩)
    fun hid => Proc.yields_failIf_bind (fun _ => ⟨rfl, fun _ _ => ⟨_, rfl⟩⟩) fun _ => ?_)
  split
  · rename_i hheader
    exact Proc.yields_ofExcept_bind (fun _ _ => ⟨rfl, fun hne => absurd hheader hne⟩)
      fun _ _ => Proc.yields_pure ⟨rfl, fun hne => absurd hheader hne⟩
  · rw [not_not.mp hid]
    rcases hf : pager.bpm.pageFrames entry.2.id with _ | f
    · obtain ⟨e, hrun⟩ := BufferPoolManager.findFrame_run_uncached "restore" hf
      exact .intro (onPool_run (Proc.bind_run_error hrun)) ⟨rfl, fun _ _ => ⟨e, rfl⟩⟩
    · exact .intro (onPool_run (BufferPoolManager.canRestorePage_run h hf))
        ⟨rfl, fun _ hnone => by cases hnone⟩

/-- So a rollback is refused when the page it should put back has left the pool. -/
theorem rollbackTransaction_lost (order : IterationOrder PageId) (h : pager.bpm.Inv pinned)
    {pageId : PageId} (hmem : pageId ∈ pager.transactionState.originalPages)
    (hne : pageId ≠ headerPageId) (hnone : pager.bpm.pageFrames pageId = none) :
    (rollbackTransaction order).Yields pager fun r _ => ∃ e, r = .error e := by
  obtain ⟨page, hpage⟩ := Option.isSome_iff_exists.mp (AList.lookup_isSome.mpr hmem)
  have hentry : (pageId, page) ∈ order.visitEntries pager.transactionState.originalPages :=
    order.mem_visitEntries.mpr hpage
  have hloop : (Proc.forEach checkOriginal
      (order.visitEntries pager.transactionState.originalPages)).Yields pager
        fun r _ => ∃ e, r = .error e := by
    refine Proc.yields_forEach (fun rest pager' => pager' = pager ∧ (pageId, page) ∈ rest)
      ⟨rfl, hentry⟩ ?_ fun _ hmem => absurd hmem.2 List.not_mem_nil
    rintro entry rest _ ⟨rfl, hrest⟩
    refine (checkOriginal_yields h entry).mono ?_
    rintro (e | ⟨⟩) pager' ⟨rfl, hlost⟩
    · exact ⟨e, rfl⟩
    · obtain rfl | hrest := List.mem_cons.mp hrest
      · obtain ⟨e, he⟩ := hlost hne hnone
        cases he
      · exact ⟨rfl, hrest⟩
  refine Proc.yields_get_bind (Proc.yields_failIf_bind (fun _ => ⟨_, rfl⟩) fun _ =>
    Proc.yields_failIf_bind (fun _ => ⟨_, rfl⟩) fun _ =>
    Proc.yields_failIf_bind (fun _ => ⟨_, rfl⟩) fun _ => ?_)
  refine hloop.bind ?_ fun e _ _ => ⟨e, rfl⟩
  rintro _ _ ⟨e, he⟩
  cases he

end Pager

namespace Session

variable {s s' : Session} {c : Call} {r : Reply} {trace : List (Call × Reply)}

theorem Sound.step_committed (h : s.Sound) (hstep : s.Step c r s') (hcommit : ¬Commits (c, r)) :
    s'.abs.flat.committed = s.abs.flat.committed := by
  obtain ⟨-, hanswer | ⟨_, -, habs, -⟩ | ⟨_, _, -, -, -, habs⟩⟩ := h.step hstep
  · exact FlatSession.call_committed hanswer hcommit
  · rw [habs]
  · rw [habs]

theorem Sound.runs_committed (hrun : Runs Step s trace s') (h : s.Sound)
    (hcommit : ∀ entry ∈ trace, ¬Commits entry) :
    s'.abs.flat.committed = s.abs.flat.committed := by
  induction hrun with
  | nil => rfl
  | cons head _ ih =>
    exact (ih (h.step head).1 fun entry hmem => hcommit entry (List.mem_cons_of_mem _ hmem)).trans
      (h.step_committed head (hcommit _ (List.mem_cons_self ..)))

/-- A begin that succeeds finds no transaction. -/
theorem Sound.of_begin (h : s.Sound) {page : Option Page}
    (hstep : s.Step .beginTransaction (.ok page) s') :
    s.abs.flat = .settled s.abs.flat.committed ∧
      s'.abs = ⟨{ s.abs.flat with status := .active }, s.abs.handles⟩ := by
  obtain ⟨-, hanswer | ⟨status, hr, -, -⟩ | ⟨_, _, hc, -, -, -⟩⟩ := h.step hstep
  · have hbegin : s.abs.perform FlatPager.beginTransaction = (.ok page, s'.abs) :=
      Option.some.inj hanswer
    rw [FlatSession.perform, FlatPager.beginTransaction, Proc.get_bind_run] at hbegin
    by_cases hstatus : s.abs.flat.status = .inactive
    · rw [Proc.bind_run_ok (Proc.failIf_run_of_not _ (not_not_intro hstatus) _),
        Proc.modify_run] at hbegin
      exact ⟨h.inv.abs_of_inactive hstatus, (Prod.mk.inj hbegin).2.symm⟩
    · rw [Proc.bind_run_error (Proc.failIf_run_of _ hstatus _)] at hbegin
      cases hbegin
  · cases hr
  · cases hc

theorem Sound.release_flat (h : s.Sound) {handle : Nat} (hstep : s.Step (.release handle) r s') :
    s'.abs.flat = s.abs.flat := by
  obtain ⟨-, hanswer | ⟨_, -, habs, -⟩ | ⟨_, _, hc, -, -, -⟩⟩ := h.step hstep
  · obtain ⟨pin, -, heq⟩ := Option.map_eq_some_iff.mp hanswer
    exact (congrArg FlatSession.flat (Prod.mk.inj heq).2).symm
  · rw [habs]
  · cases hc

theorem Sound.releases_flat (hrun : Runs Step s trace s') (h : s.Sound)
    (hrelease : ∀ entry ∈ trace, ∃ handle, entry.1 = .release handle) :
    s'.abs.flat = s.abs.flat := by
  induction hrun with
  | nil => rfl
  | @cons c r s s₁ s₂ rest head _ ih =>
    obtain ⟨handle, rfl⟩ : ∃ handle, c = .release handle := hrelease _ (List.mem_cons_self ..)
    exact (ih (h.step head).1 fun entry hmem => hrelease entry (List.mem_cons_of_mem _ hmem)).trans
      (h.release_flat head)

/-- What a rollback of an active or failed transaction does. -/
theorem Sound.rollback_cases (h : s.Sound) {order : IterationOrder PageId}
    (hstatus : s.abs.flat.status = .active ∨ s.abs.flat.status = .failed)
    (hstep : s.Step (.rollbackTransaction order) r s') :
    r = .ok none ∧ s'.abs.flat = .settled s.abs.flat.committed ∨
      (∃ e, r = .error e) ∧ s' = s ∧
        ∃ pageId ∈ s.abs.pinned, pageId ∈ s.abs.flat.dirtyPageIds := by
  have hrollback := Pager.rollbackTransaction_yields order h.inv
  rw [Step, call, Session.perform] at hstep
  unfold Proc.Yields at hrollback
  rcases hrun : (Pager.rollbackTransaction order).run s.pager with ⟨result, pager⟩
  rw [hrun] at hrollback hstep
  cases hstep
  obtain ⟨-, -, -, hflat, hsame⟩ := hrollback
  rw [← pinned_abs] at hflat
  obtain hok | ⟨⟨e, herror⟩, hpinned⟩ := FlatPager.rollbackTransaction_cases s.abs.pinned hstatus
  · obtain ⟨rfl, habs⟩ := Prod.mk.inj (hflat.symm.trans hok)
    exact .inl ⟨rfl, habs⟩
  · obtain ⟨rfl, -⟩ := Prod.mk.inj (hflat.symm.trans herror)
    rw [hsame e rfl]
    exact .inr ⟨⟨e, rfl⟩, rfl, hpinned⟩

/-- A rollback undoes everything since the transaction began, or it finds a page
of the transaction pinned and leaves the session as it was, and then succeeds
when it is asked for again after the handles are gone. -/
theorem rollback_exact {view : PageArray} {pager : Pager} {s₀ s₁ s₂ s₃ : Session}
    {earlier : List (Call × Reply)} {page : Option Page} {order : IterationOrder PageId}
    (hstart : Starts view pager) (hearlier : Runs Step (start pager) earlier s₀)
    (hbegin : s₀.Step .beginTransaction (.ok page) s₁) (hrun : Runs Step s₁ trace s₂)
    (hcommit : ∀ entry ∈ trace, ¬Commits entry)
    (hstatus : s₂.abs.flat.status = .active ∨ s₂.abs.flat.status = .failed)
    (hstep : s₂.Step (.rollbackTransaction order) r s₃) :
    r = .ok none ∧ s₃.abs.flat = s₀.abs.flat ∧ s₀.abs.flat.status = .inactive ∨
      (∃ e, r = .error e) ∧ s₃ = s₂ ∧
        (∃ pageId ∈ s₂.abs.pinned, pageId ∈ s₂.abs.flat.dirtyPageIds) ∧
        ∀ releases s₄ order' r' s₅, Runs Step s₃ releases s₄ →
          (∀ entry ∈ releases, ∃ handle, entry.1 = .release handle) →
          (∀ pageId ∈ s₄.abs.pinned, pageId ∉ s₄.abs.flat.dirtyPageIds) →
          s₄.Step (.rollbackTransaction order') r' s₅ →
          r' = .ok none ∧ s₅.abs.flat = s₀.abs.flat := by
  have hsound₀ : s₀.Sound := hstart.sound.1.runs hearlier
  obtain ⟨hsettled, habs₁⟩ := hsound₀.of_begin hbegin
  have hsound₁ : s₁.Sound := (hsound₀.step hbegin).1
  have hsound₂ : s₂.Sound := hsound₁.runs hrun
  have hcommitted : s₂.abs.flat.committed = s₀.abs.flat.committed := by
    rw [hsound₁.runs_committed hrun hcommit, habs₁]
  obtain ⟨hr, hflat⟩ | ⟨hr, rfl, hpinned⟩ := hsound₂.rollback_cases hstatus hstep
  · refine .inl ⟨hr, ?_, ?_⟩
    · rw [hflat, hcommitted, ← hsettled]
    · rw [hsettled]
      rfl
  refine .inr ⟨hr, rfl, hpinned, fun releases s₄ order' r' s₅ hreleases hall hfree hstep' => ?_⟩
  have hflat₄ := hsound₂.releases_flat hreleases hall
  obtain ⟨hr', hflat⟩ | ⟨-, -, pageId, hpin, hdirty⟩ :=
    (hsound₂.runs hreleases).rollback_cases (by rwa [hflat₄]) hstep'
  · exact ⟨hr', by rw [hflat, hflat₄, hcommitted, ← hsettled]⟩
  · exact absurd hdirty (hfree pageId hpin)

/-- A page is written and another made.  The first rollback finds both pinned. -/
theorem rollback_exact_small : ∃ (s₀ s₁ s₂ s₃ s₄ s₅ : Session) (trace releases : List (Call × Reply)),
    s₀.abs.flat.active.page 1 = some (filled 1) ∧ s₀.Step .beginTransaction (.ok none) s₁ ∧
    Runs Step s₁ trace s₂ ∧ s₂.abs.flat.active.page 1 = some (filled 2) ∧
    s₂.abs.flat.dirtyPageIds = [2, headerPageId, 1] ∧
    s₂.Step (.rollbackTransaction .insertion)
      (.error (.InternalError "Cannot restore page: page is pinned")) s₃ ∧ s₃ = s₂ ∧
    Runs Step s₃ releases s₄ ∧ s₄.Step (.rollbackTransaction .insertion) (.ok none) s₅ ∧
    s₅.abs.flat = s₀.abs.flat := by
  obtain ⟨pager, s₀, hcreate, h₀⟩ := exists_played 4 (by decide) (by decide)
    (show FlatSession.play 4 _ [.beginTransaction, .newPage, .store 0 (filled 1), .release 0,
      .commitTransaction .insertion] = some (_, _) from rfl)
  have hframes := Pager.frameCount_of_createEmpty hcreate
  have hframes₀ := h₀.frameCount.trans hframes
  obtain ⟨s₁, h₁⟩ := h₀.play hframes (by decide)
    (show FlatSession.play 4 _ [.beginTransaction] = some ([(_, .ok none)], _) from rfl)
  have hframes₁ := h₁.frameCount.trans hframes₀
  obtain ⟨s₂, h₂⟩ := h₁.play hframes₀ (by decide)
    (show FlatSession.play 4 _ [.getPage 1, .mutablePage 0, .store 0 (filled 2), .newPage] =
      some (_, _) from rfl)
  obtain ⟨s₃, h₃⟩ := h₂.play hframes₁ (by decide)
    (show FlatSession.play 4 _ [.rollbackTransaction .insertion] = some ([(_,
      .error (.InternalError "Cannot restore page: page is pinned"))], _) from rfl)
  have hactive : s₂.abs.flat.status = .active := by rw [h₂.abs]; rfl
  obtain ⟨hr, -⟩ | ⟨-, rfl, -, hagain⟩ := rollback_exact (.create hcreate) h₀.runs h₁.step h₂.runs
    (fun entry hmem => by fin_cases hmem <;> rintro ⟨_, _, ⟨⟩⟩) (.inl hactive) h₃.step
  · cases hr
  obtain ⟨s₄, h₄⟩ := h₂.play hframes₁ (by decide)
    (show FlatSession.play 4 _ [.release 0, .release 0] = some (_, _) from rfl)
  obtain ⟨s₅, h₅⟩ := h₄.play (h₂.frameCount.trans hframes₁) (by decide)
    (show FlatSession.play 4 _ [.rollbackTransaction .insertion] = some ([(_, .ok none)], _) from rfl)
  obtain ⟨-, hflat⟩ := hagain _ s₄ .insertion _ s₅ h₄.runs
    (fun entry hmem => by fin_cases hmem <;> exact ⟨0, rfl⟩)
    (by rw [h₄.abs]; exact fun pageId hmem => absurd hmem List.not_mem_nil) h₅.step
  exact ⟨s₀, s₁, s₃, s₃, s₄, s₅, _, _, congrArg (fun s => s.flat.active.page 1) h₀.abs, h₁.step,
    h₂.runs, congrArg (fun s => s.flat.active.page 1) h₂.abs,
    congrArg (fun s => s.flat.dirtyPageIds) h₂.abs, h₃.step, rfl, h₄.runs, h₅.step, hflat⟩

/-- With 2^32 handles on a page that the transaction has written, the page can leave the
pool, and after all handles are gone a rollback is still refused. -/
theorem rollback_overflow : ∃ pager trace s,
    Pager.createEmpty "db" ⟨none, none⟩ 1 7 = .ok pager ∧ Runs Responds (start pager) trace s ∧
    s.pager.transactionState.status = .active ∧ s.handles = [] ∧
    ∀ order, ∃ e s', s.Responds (.rollbackTransaction order) (.error e) s' := by
  obtain ⟨pager, trace, s, hcreate, hrun, -, -, hlent, hcommitted⟩ := exists_lent .zero
  obtain ⟨bpm, handles, hrun', hsingle⟩ := hlent.overflows
  have hreleases := @responds_releases s.pager _ _ hsingle handles
  have htransaction := hlent.sound.inv.transaction
  -- page 1 is not new, so the transaction has kept its original
  have horiginal : (1 : PageId) ∈ s.pager.transactionState.originalPages := by
    refine ((htransaction.dirty_iff 1).mp hlent.dirty).resolve_left fun hnew => ?_
    obtain ⟨-, hlt⟩ := (Pager.committedPage_isSome hlent.sound.inv.file 1).mp ⟨_, hcommitted⟩
    exact absurd ((htransaction.new_iff 1).mp hnew).1 (Nat.not_le_of_lt hlt)
  refine ⟨pager, _, ⟨s.pager.withPool bpm, []⟩, hcreate,
    ((responds_of_runs hrun).append hrun').append hreleases, hlent.active, rfl, fun order => ?_⟩
  obtain ⟨e, he⟩ := @Pager.rollbackTransaction_lost (s.pager.withPool bpm) [] order hsingle.inv 1
    horiginal (by decide) (hsingle.other 1 (by decide))
  exact ⟨e, _, congrArg some (Prod.ext (congrArg answer he) rfl)⟩

end Session

end DanDB.Storage
