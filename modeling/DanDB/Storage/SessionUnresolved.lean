import DanDB.Storage.SessionRuns
import DanDB.Wal.WalFaults

/-!
# Commits with an unknown outcome

When the log refuses a part of a transaction, nobody knows how much of it
reached the file.  From then on the pager refuses every change, and the files
hold the pages from before the transaction or from after it.
-/

namespace DanDB.Storage

open DanDB.Core Platform Wal BufferPool

namespace Call

/-- The call asks for a change. -/
def Mutates : Call → Prop
  | beginTransaction => True
  | newPage => True
  | mutablePage _ => True
  | store _ _ => True
  | setSystemRoots _ _ _ _ => True
  | commitTransaction _ => True
  | rollbackTransaction _ => True
  | markTransactionFailed => True
  | checkpoint _ => True
  | _ => False

end Call

namespace FlatSession

variable {s t : FlatSession} {c : Call} {r : Reply}

theorem perform_stuck {x : Proc Status FlatPager Unit} (hx : FlatPager.Stuck x)
    (h : s.flat.status = .unresolved) : ∃ e, s.perform x = (.error e, s) := by
  obtain ⟨e, hrun⟩ := hx.run h
  rw [perform, hrun]
  exact ⟨e, rfl⟩

/-- No handle may be written through. -/
def NoneDirty (s : FlatSession) : Prop := ∀ pin ∈ s.handles, pin.2 = false

/-- While the outcome of a transaction is open, every change is refused. -/
theorem call_unresolved (h : s.call c = some (r, t)) (hun : s.flat.status = .unresolved)
    (hclean : s.NoneDirty) :
    (c.Mutates → ∃ e, r = .error e) ∧ t.flat = s.flat ∧ t.NoneDirty := by
  have hperform {x : Proc Status FlatPager Unit} (hx : FlatPager.Stuck x)
      (h : some (s.perform x) = some (r, t)) :
      (c.Mutates → ∃ e, r = .error e) ∧ t.flat = s.flat ∧ t.NoneDirty := by
    obtain ⟨e, he⟩ := perform_stuck hx hun
    rw [he] at h
    cases h
    exact ⟨fun _ => ⟨e, rfl⟩, rfl, hclean⟩
  cases c with
  | beginTransaction => exact hperform FlatPager.stuck_beginTransaction h
  | getPage pageId =>
    have hget : (FlatPager.getPage pageId).Yields s.flat fun _ flat => flat = s.flat :=
      Proc.yields_get_bind (Proc.yields_failIf_bind (fun _ => rfl) fun _ => by
        split
        · exact Proc.yields_pure rfl
        · exact Proc.yields_fail rfl)
    unfold Proc.Yields at hget
    rw [call] at h
    rcases hrun : (FlatPager.getPage pageId).run s.flat with ⟨e | data, flat⟩ <;>
      rw [hrun] at hget h <;> cases h
    · exact ⟨fun hmutates => hmutates.elim, hget, hclean⟩
    · refine ⟨fun hmutates => hmutates.elim, hget, fun pin hpin => ?_⟩
      obtain rfl | hpin := List.mem_cons.mp hpin
      · rfl
      · exact hclean pin hpin
  | newPage =>
    obtain ⟨e, hrun⟩ := FlatPager.stuck_newPage.run hun
    rw [call, hrun] at h
    cases h
    exact ⟨fun _ => ⟨e, rfl⟩, rfl, hclean⟩
  | read handle =>
    obtain ⟨pin, -, heq⟩ := Option.map_eq_some_iff.mp h
    cases heq
    exact ⟨fun hmutates => hmutates.elim, rfl, hclean⟩
  | mutablePage handle =>
    obtain ⟨pin, -, heq⟩ := Option.map_eq_some_iff.mp h
    obtain ⟨e, hrun⟩ := (FlatPager.stuck_markDirty pin.1).run hun
    rw [hrun] at heq
    cases heq
    exact ⟨fun _ => ⟨e, rfl⟩, rfl, hclean⟩
  | store handle data =>
    obtain ⟨pin, hpin, heq⟩ := Option.bind_eq_some_iff.mp h
    rw [hclean pin (List.mem_of_getElem? hpin)] at heq
    cases heq
  | release handle =>
    obtain ⟨pin, -, heq⟩ := Option.map_eq_some_iff.mp h
    cases heq
    exact ⟨fun hmutates => hmutates.elim, rfl, fun pin hpin =>
      hclean pin (List.mem_of_mem_eraseIdx hpin)⟩
  | setSystemRoots tables columns indexes indexColumns =>
    exact hperform (FlatPager.stuck_setSystemRoots _ _ _ _) h
  | commitTransaction order => exact hperform (FlatPager.stuck_commitTransaction _) h
  | rollbackTransaction order => exact hperform (FlatPager.stuck_rollbackTransaction _) h
  | markTransactionFailed => exact hperform FlatPager.stuck_markTransactionFailed h
  | checkpoint order =>
    rw [call] at h
    split at h
    · cases h
    · exact hperform FlatPager.stuck_checkpoint h
  | setDiskFaults faults =>
    cases h
    exact ⟨fun hmutates => hmutates.elim, rfl, hclean⟩
  | setWalFaults faults =>
    cases h
    exact ⟨fun hmutates => hmutates.elim, rfl, hclean⟩

end FlatSession

namespace Pager

/-- A commit of an active transaction without pinned pages fails when a call to
the log does: one call for each page, one for the commit record and a flush. -/
theorem commitTransaction_fails {pager : Pager} {live : List PagePin} (h : pager.Inv live)
    (order : IterationOrder PageId) {fault : Fault} {rest : List (Option Fault)} {k : Nat}
    (hactive : pager.transactionState.status = .active)
    (hunpinned : ∀ pageId ∈ pager.pinned live, pageId ∉ pager.transactionState.dirtyPageIds)
    (hwal : pager.walManager.FailsAfter k fault rest)
    (hk : k ≤ pager.transactionState.dirtyPageIds.length + 1) :
    (commitTransaction order).Yields pager fun r _ => r = .error fault.status := by
  have hmem : ∀ pageId ∈ order.visit pager.transactionState.dirtyPageIds,
      pageId ∈ pager.transactionState.dirtyPageIds := fun _ hp => order.mem_visit.mp hp
  obtain ⟨r, hrun, hflat, ⟨rfl, -⟩ | ⟨e, rfl⟩⟩ := requireActive_run h.isOpen "commit transaction"
  swap
  · have hok := @FlatPager.requireActive_active pager.abs hactive "commit transaction"
    cases hflat.symm.trans hok
  have hcheck : (Proc.forEach requireUnpinned
      (order.visit pager.transactionState.dirtyPageIds)).Yields pager fun r pager' =>
      r = .ok () ∧ pager' = pager := by
    obtain ⟨⟨pageId, hp, -, hpin⟩, -⟩ | ⟨-, hrun⟩ := requireUnpinned_run h hmem
    · exact absurd (hmem pageId hp) (hunpinned pageId hpin)
    · exact Proc.Yields.intro hrun ⟨rfl, rfl⟩
  have hrequire : (requireActive "commit transaction").Yields pager fun r pager' =>
      r = .ok () ∧ pager' = pager := Proc.Yields.intro hrun ⟨rfl, rfl⟩
  refine hrequire.bind (fun _ _ hmid => ?_) fun _ _ hmid => by cases hmid.1
  rw [hmid.2]
  refine Proc.yields_get_bind (hcheck.bind (fun _ _ hmid => ?_) fun _ _ hmid => by cases hmid.1)
  rw [hmid.2]
  refine (snapshots_yields h hmem fun _ hp =>
    count_lt_of_unpinned fun hpin => hunpinned _ hpin (hmem _ hp)).bind (fun pages pager₁ hmid => ?_) fun e pager₁ hmid => ?_
  swap
  · obtain ⟨_, hr, -⟩ := hmid
    cases hr
  obtain ⟨pages, hr, hids, -, -, -, bpm, rfl⟩ := hmid
  cases hr
  have hperm : (pages.map Page.id).Perm pager.transactionState.dirtyPageIds := by
    rw [hids]
    exact order.perm _
  have hvalid : ∀ page ∈ pages, page.id.isValid = true := fun page hp =>
    h.valid_of_dirty (hperm.mem_iff.mp (List.mem_map_of_mem hp))
  have hlength : k ≤ pages.length + 1 := by
    rw [← List.length_map Page.id, hperm.length_eq]
    exact hk
  have hwrite : (writeLog pages).Yields (pager.withPool bpm) fun r _ => r = .error fault.status := by
    have hcommit := WalManager.commitTransaction_fails hwal
      pager.transactionState.transactionId hvalid hlength
    have honWal : (onWal (WalManager.commitTransaction pager.transactionState.transactionId
        pages)).Yields (pager.withPool bpm) fun r _ => r = .error fault.status :=
      Proc.yields_zoom hcommit
    refine Proc.yields_get_bind (honWal.attempt_bind fun r _ hr => ?_)
    rw [hr]
    exact Proc.yields_modify_bind (Proc.yields_fail rfl)
  refine hwrite.bind (fun _ _ hmid => ?_) fun _ _ hmid => hmid
  cases hmid

end Pager

namespace Session

variable {s s' : Session} {c : Call} {r : Reply} {trace : List (Call × Reply)}

/-- The outcome of the last commit is not known, and nothing can be written. -/
structure Fenced (s : Session) : Prop where
  sound : s.Sound
  status : s.abs.flat.status = .unresolved
  noneDirty : s.abs.NoneDirty

/-- A call leaves the bytes of both files alone. -/
structure SameFiles (s s' : Session) : Prop where
  main : s'.pager.diskManager.fileHandle.bytes = s.pager.diskManager.fileHandle.bytes
  wal : s'.pager.walManager.fileHandle.bytes = s.pager.walManager.fileHandle.bytes

theorem Fenced.sameFiles (h : s.Fenced) (hstep : s.Step c r s') : s.SameFiles s' := by
  by_cases hkeeps : c.KeepsStore
  · have hsame := hstep.sameStore h.sound hkeeps
    exact ⟨hsame.disk.bytes, by rw [hsame.wal]⟩
  have hun : s.pager.transactionState.status = .unresolved := h.status
  cases c with
  | commitTransaction order =>
    obtain ⟨result, hrun, -, ⟨-, hactive⟩ | ⟨e, rfl⟩⟩ :=
      Pager.requireActive_run h.sound.inv.isOpen "commit transaction"
    · exact absurd (hactive.symm.trans hun) (by decide)
    · have hcommit : (Pager.commitTransaction order).run s.pager = (.error e, s.pager) := by
        rw [Pager.commitTransaction, Proc.bind_run_error hrun]
      rw [Step, call, Session.perform, hcommit] at hstep
      cases hstep
      exact ⟨rfl, rfl⟩
  | checkpoint order =>
    obtain ⟨e, hrun, -⟩ := Pager.checkpoint_unresolved order hun
    rw [Step, call, Session.perform, hrun] at hstep
    cases hstep
    exact ⟨rfl, rfl⟩
  | setDiskFaults faults =>
    rw [Step, call] at hstep
    split at hstep
    · cases hstep
      exact ⟨rfl, rfl⟩
    · cases hstep
  | setWalFaults faults =>
    cases hstep
    exact ⟨rfl, rfl⟩
  | _ => exact absurd trivial hkeeps

theorem Fenced.step (h : s.Fenced) (hstep : s.Step c r s') :
    s'.Fenced ∧ (c.Mutates → ∃ e, r = .error e) ∧ s'.abs.flat = s.abs.flat := by
  obtain ⟨hsound, houtcome⟩ := h.sound.step hstep
  obtain hanswer | ⟨e, rfl, habs, -⟩ | ⟨order, e, -, rfl, -, habs⟩ := houtcome
  · obtain ⟨hrefused, hflat, hclean⟩ :=
      FlatSession.call_unresolved hanswer h.status h.noneDirty
    exact ⟨⟨hsound, hflat ▸ h.status, hclean⟩, hrefused, hflat⟩
  · exact ⟨⟨hsound, habs ▸ h.status, habs ▸ h.noneDirty⟩, fun _ => ⟨e, rfl⟩, by rw [habs]⟩
  · refine ⟨⟨hsound, by rw [habs], by rw [habs]; exact h.noneDirty⟩, fun _ => ⟨e, rfl⟩, ?_⟩
    rw [habs]
    exact congrArg (fun status => { s.abs.flat with status := status }) h.status.symm

theorem Fenced.runs (hrun : Runs Step s trace s') (h : s.Fenced) :
    s'.Fenced ∧ (∀ entry ∈ trace, entry.1.Mutates → ∃ e, entry.2 = .error e) ∧
      s'.abs.flat = s.abs.flat ∧ s.SameFiles s' := by
  induction hrun with
  | nil => exact ⟨h, nofun, rfl, rfl, rfl⟩
  | @cons c r s s₁ s₂ rest head _ ih =>
    obtain ⟨h₁, hrefused, hflat⟩ := h.step head
    obtain ⟨h₂, hrest, hflat', hfiles'⟩ := ih h₁
    have hfiles := h.sameFiles head
    refine ⟨h₂, fun entry hmem => ?_, hflat'.trans hflat, hfiles'.main.trans hfiles.main,
      hfiles'.wal.trans hfiles.wal⟩
    obtain rfl | hmem := List.mem_cons.mp hmem
    · exact hrefused
    · exact hrest entry hmem

/-! ## The commit that failed -/

/-- What a commit leaves that the log refused: some first bytes of a transaction
that would have made the active pages the committed ones. -/
structure CommitFailed (s s' : Session) (log : List LogTransaction) (t : LogTransaction)
    (n : Nat) : Prop where
  fenced : s'.Fenced
  flat : s'.abs.flat = { s.abs.flat with status := .unresolved }
  main : s'.pager.diskManager.fileHandle.bytes = s.pager.diskManager.fileHandle.bytes
  before : Recovers s.pager.diskManager log s.abs.flat.committed
  after : Recovers s.pager.diskManager (log ++ [t]) s.abs.flat.active
  wal : s.pager.walManager.fileHandle.bytes =
    WalManager.fileBytes s.abs.flat.committed.header.databaseId log
  torn : s'.pager.walManager.fileHandle.bytes =
    s.pager.walManager.fileHandle.bytes ++ t.encode.take n
  databaseId : s.abs.flat.active.header.databaseId = s.abs.flat.committed.header.databaseId

theorem Sound.commitFailed (h : s.Sound) {order : IterationOrder PageId} {e : Status}
    (hactive : s.abs.flat.status = .active)
    (hunpinned : ∀ pageId ∈ s.abs.pinned, pageId ∉ s.abs.flat.dirtyPageIds)
    (hstep : s.Step (.commitTransaction order) (.error e) s') :
    ∃ log t n, s.CommitFailed s' log t n := by
  have hactive' : s.pager.transactionState.status = .active := hactive
  obtain ⟨log, hlogs, hrecovers⟩ := h.logged (by rw [hactive']; decide)
  have hcommit := Pager.commitTransaction_yields order h.inv fun _ => hlogs
  have hsound : s'.Sound := (h.step hstep).1
  unfold Proc.Yields at hcommit
  rw [Step, call, Session.perform] at hstep
  rcases hrun : (Pager.commitTransaction order).run s.pager with ⟨e' | u, pager⟩ <;>
    rw [hrun] at hcommit hstep <;> cases hstep
  obtain ⟨hinv, hpins, hdisk, hwal, ⟨-, -, hflat⟩ | ⟨-, habs, t, n, ht, htorn⟩⟩ := hcommit
  · have hok := FlatPager.commitTransaction_active hactive hunpinned
    rw [pinned_abs] at hok
    cases hflat.symm.trans hok
  · have habs' : (⟨pager, s.handles⟩ : Session).abs =
        ⟨{ s.abs.flat with status := .unresolved }, s.abs.handles⟩ := by
      rw [abs, habs, handles_of_samePins hpins]
      rfl
    have hwalBytes : s.pager.walManager.fileHandle.bytes =
        WalManager.fileBytes s.abs.flat.committed.header.databaseId log := by
      rw [hlogs.bytes, h.databaseId]
      rfl
    refine ⟨log, t, n, ⟨hsound, congrArg FlatPager.status habs, ?_⟩, habs, hdisk.bytes, hrecovers,
      hrecovers.commit h.inv ht, hwalBytes, ?_, h.inv.transaction.databaseId⟩
    · -- a handle that may be written is on a page of the transaction
      rw [habs']
      intro pin hpin
      obtain ⟨p, hp, rfl⟩ := List.mem_map.mp hpin
      rcases hdirty : p.isDirty with _ | _
      · rfl
      · exact absurd (h.inv.pool.pinDirty p hp hdirty)
          (hunpinned _ (List.mem_map_of_mem (List.mem_map_of_mem hp)))
    · show pager.walManager.fileHandle.bytes = _
      rw [htorn.bytes, hwal.databaseId, hlogs.bytes]

/-- The files after a failed commit, however much of the transaction reached the
log: they hold the pages from before the transaction or from after it. -/
theorem CommitFailed.open_files {log : List LogTransaction} {t : LogTransaction} {n L : Nat}
    (h : s.CommitFailed s' log t n) (order : IterationOrder PageId) (path : String)
    {capacity : Nat} (hcapacity : 0 < capacity)
    (hL : s.pager.walManager.fileHandle.bytes.length ≤ L)
    (hmax : (s'.pager.walManager.fileHandle.bytes.take L).length ≤ FileHandle.maxFileSize) :
    ∃ pager, Pager.open order path ⟨some s.pager.diskManager.fileHandle.bytes,
        some (s'.pager.walManager.fileHandle.bytes.take L)⟩ capacity = .ok pager ∧
      (pager.abs = .settled s.abs.flat.committed ∨ pager.abs = .settled s.abs.flat.active) := by
  obtain ⟨m, rfl⟩ : ∃ m, L = s.pager.walManager.fileHandle.bytes.length + m :=
    ⟨_, (Nat.add_sub_of_le hL).symm⟩
  rw [h.torn, List.take_length_add_append, List.take_take, h.wal] at hmax ⊢
  by_cases hwhole : t.encode.length ≤ min m n
  · have hbytes : WalManager.fileBytes s.abs.flat.committed.header.databaseId log ++
        t.encode.take (min m n) =
          WalManager.fileBytes s.abs.flat.active.header.databaseId (log ++ [t]) ++ [] := by
      rw [List.take_of_length_le hwhole, List.append_nil, WalManager.fileBytes_append,
        h.databaseId]
    obtain ⟨pager, hopen, hshows, -⟩ := Pager.open_eq h.after order path hcapacity torn_nil
      fun hne => absurd rfl hne
    rw [hbytes]
    exact ⟨pager, hopen, .inr hshows.abs⟩
  · obtain ⟨pager, hopen, hshows, -⟩ := Pager.open_eq h.before order path hcapacity
      ⟨t, min m n, Nat.lt_of_not_le hwhole, rfl⟩
      fun _ => by rwa [← List.length_append]
    exact ⟨pager, hopen, .inl hshows.abs⟩

end Session

end DanDB.Storage
