import DanDB.Storage.SessionUnresolved

/-!
# Reachable sessions

Every session there can be on a database: the calls of a program, the end of a
program at any moment, and the start of the next one on the files that were
left.  A crash is a session whose files stop answering: the schedule of faults
says at which call to the operating system, and how much of a write to the log
was done by then.
-/

namespace DanDB.Storage

open DanDB.Core Platform Wal BufferPool

/-! ## The status of the transaction -/

namespace FlatPager

/-- The procedure leaves the status of the transaction alone. -/
def KeepsStatus {α : Type} (x : Proc Status FlatPager α) : Prop :=
  ∀ flat : FlatPager, x.Yields flat fun _ flat' => flat'.status = flat.status

theorem keepsStatus_getPage (pageId : PageId) : KeepsStatus (getPage pageId) := fun flat =>
  Proc.yields_get_bind (Proc.yields_failIf_bind (fun _ => rfl) fun _ => by
    split
    · exact Proc.yields_pure rfl
    · exact Proc.yields_fail rfl)

theorem keepsStatus_markDirty (pageId : PageId) : KeepsStatus (markDirty pageId) := fun _ =>
  Proc.yields_get_bind (Proc.yields_failIf_bind (fun _ => rfl) fun _ =>
    Proc.yields_failIf_bind (fun _ => rfl) fun _ => Proc.yields_failIf_bind (fun _ => rfl) fun _ =>
      Proc.yields_failIf_bind (fun _ => rfl) fun _ => Proc.yields_modify rfl)

theorem keepsStatus_newPage : KeepsStatus newPage := by
  intro flat
  refine (requireActive_same flat _).bind (fun _ flat' hmid => ?_) fun _ _ hmid => by rw [hmid]
  subst hmid
  exact Proc.yields_get_bind (Proc.yields_failIf_bind (fun _ => rfl) fun _ =>
    Proc.yields_modify_bind (Proc.yields_pure rfl))

theorem keepsStatus_setSystemRoots (tables columns indexes indexColumns : PageId) :
    KeepsStatus (setSystemRoots tables columns indexes indexColumns) := fun flat =>
  (keepsStatus_markDirty headerPageId flat).bind (fun _ _ hmid => Proc.yields_modify hmid)
    fun _ _ hmid => hmid

theorem keepsStatus_checkpoint : KeepsStatus checkpoint := fun flat =>
  Proc.yields_get_bind (by
    by_cases h : flat.status = .unresolved
    · exact Proc.Yields.intro (Proc.failIf_run_of flat h _) rfl
    · exact Proc.Yields.intro (Proc.failIf_run_of_not flat h _) rfl)

/-- A transaction begins where there is none. -/
theorem beginTransaction_status (flat : FlatPager) :
    beginTransaction.Yields flat fun r flat' => flat'.status = flat.status ∨
      r = .ok () ∧ flat.status = .inactive ∧ flat'.status = .active :=
  Proc.yields_get_bind (Proc.yields_failIf_bind (fun _ => .inl rfl) fun h =>
    Proc.yields_modify (.inr ⟨rfl, not_not.mp h, rfl⟩))

/-- Either it fails and leaves the status alone, or the transaction has ended. -/
def EndsOrFails (x : Proc Status FlatPager Unit) : Prop :=
  ∀ flat : FlatPager, x.Yields flat fun r flat' =>
    (∃ e, r = .error e) ∧ flat'.status = flat.status ∨ r = .ok () ∧ flat'.status = .inactive

theorem endsOrFails_commitTransaction (pinned : List PageId) :
    EndsOrFails (commitTransaction pinned) := by
  intro flat
  refine (requireActive_same flat _).bind (fun _ flat' hmid => ?_) fun e _ hmid => by
    rw [hmid]
    exact .inl ⟨⟨e, rfl⟩, rfl⟩
  subst hmid
  exact Proc.yields_get_bind (Proc.yields_failIf_bind (fun _ => .inl ⟨⟨_, rfl⟩, rfl⟩) fun _ =>
    Proc.yields_modify (.inr ⟨rfl, rfl⟩))

theorem endsOrFails_rollbackTransaction (pinned : List PageId) :
    EndsOrFails (rollbackTransaction pinned) := fun _ =>
  Proc.yields_get_bind (Proc.yields_failIf_bind (fun _ => .inl ⟨⟨_, rfl⟩, rfl⟩) fun _ =>
    Proc.yields_failIf_bind (fun _ => .inl ⟨⟨_, rfl⟩, rfl⟩) fun _ =>
      Proc.yields_failIf_bind (fun _ => .inl ⟨⟨_, rfl⟩, rfl⟩) fun _ =>
        Proc.yields_failIf_bind (fun _ => .inl ⟨⟨_, rfl⟩, rfl⟩) fun _ =>
          Proc.yields_modify (.inr ⟨rfl, rfl⟩))

/-- A transaction that is marked as failed has begun. -/
theorem markTransactionFailed_status (flat : FlatPager) :
    markTransactionFailed.Yields flat fun _ flat' => flat'.status = flat.status ∨
      flat.status ≠ .inactive ∧ flat.status ≠ .unresolved ∧ flat'.status = .failed :=
  Proc.yields_get_bind (Proc.yields_failIf_bind (fun _ => .inl rfl) fun h =>
    Proc.yields_failIf_bind (fun _ => .inl rfl) fun h' => Proc.yields_modify (.inr ⟨h, h', rfl⟩))

end FlatPager

/-- The end of a transaction: a commit or a rollback that succeeds. -/
def Ends (entry : Call × Reply) : Prop :=
  ∃ order page, entry = (.commitTransaction order, .ok page) ∨
    entry = (.rollbackTransaction order, .ok page)

/-- What fails ends no transaction. -/
theorem not_ends_error {c : Call} {e : Status} : ¬Ends (c, .error e) := by
  rintro ⟨_, _, h | h⟩ <;> cases h

theorem not_ends_call {c : Call} {r : Reply} (hcommit : ∀ order, c ≠ .commitTransaction order)
    (hrollback : ∀ order, c ≠ .rollbackTransaction order) : ¬Ends (c, r) := by
  rintro ⟨order, _, h | h⟩
  · exact hcommit order (Prod.mk.inj h).1
  · exact hrollback order (Prod.mk.inj h).1

namespace FlatSession

/-- What a call can do to the status of the transaction. -/
inductive StatusStep (c : Call) (r : Reply) (before after : TransactionStatus) : Prop
  | same (hends : ¬Ends (c, r)) (h : after = before)
  | begins (hc : c = .beginTransaction) (hr : r = .ok none) (h : before = .inactive)
    (h' : after = .active)
  | ends (h : Ends (c, r)) (h' : after = .inactive)
  | fails (hends : ¬Ends (c, r)) (h : before ≠ .inactive) (h' : before ≠ .unresolved)
    (h'' : after = .failed)

variable {s t : FlatSession} {c : Call} {r : Reply}

theorem perform_status {x : Proc Status FlatPager Unit} (hends : ¬Ends (c, r))
    (hx : FlatPager.KeepsStatus x) (h : s.perform x = (r, t)) :
    StatusStep c r s.flat.status t.flat.status := by
  cases h
  exact .same hends (hx s.flat)

/-- A commit or a rollback ends the transaction when it succeeds. -/
theorem perform_endsOrFails {x : Proc Status FlatPager Unit} (hx : FlatPager.EndsOrFails x)
    (hends : Ends (c, .ok none)) (h : s.perform x = (r, t)) :
    StatusStep c r s.flat.status t.flat.status := by
  cases h
  obtain ⟨⟨e, he⟩, hsame⟩ | ⟨hr, hafter⟩ := hx s.flat
  · rw [he]
    exact .same not_ends_error hsame
  · rw [hr]
    exact .ends hends hafter

/-- Each call does one of these things. -/
theorem call_status (h : s.call c = some (r, t)) : StatusStep c r s.flat.status t.flat.status := by
  cases c with
  | beginTransaction =>
    have hends : ¬Ends (.beginTransaction, r) := not_ends_call (by rintro _ ⟨⟩) (by rintro _ ⟨⟩)
    cases h
    obtain hsame | ⟨hr, h, h'⟩ := FlatPager.beginTransaction_status s.flat
    · exact .same hends hsame
    · exact .begins rfl (congrArg Session.answer hr) h h'
  | getPage pageId =>
    have hget := FlatPager.keepsStatus_getPage pageId s.flat
    unfold Proc.Yields at hget
    rw [call] at h
    rcases hrun : (FlatPager.getPage pageId).run s.flat with ⟨e | data, flat⟩ <;>
      rw [hrun] at hget h <;> cases h <;> exact .same (not_ends_call (by rintro _ ⟨⟩) (by rintro _ ⟨⟩)) hget
  | newPage =>
    have hnew := FlatPager.keepsStatus_newPage s.flat
    unfold Proc.Yields at hnew
    rw [call] at h
    rcases hrun : FlatPager.newPage.run s.flat with ⟨e | pageId, flat⟩ <;>
      rw [hrun] at hnew h <;> cases h <;> exact .same (not_ends_call (by rintro _ ⟨⟩) (by rintro _ ⟨⟩)) hnew
  | read handle =>
    obtain ⟨pin, -, heq⟩ := Option.map_eq_some_iff.mp h
    cases heq
    exact .same (not_ends_call (by rintro _ ⟨⟩) (by rintro _ ⟨⟩)) rfl
  | mutablePage handle =>
    obtain ⟨pin, -, heq⟩ := Option.map_eq_some_iff.mp h
    have hmark := FlatPager.keepsStatus_markDirty pin.1 s.flat
    unfold Proc.Yields at hmark
    rcases hrun : (FlatPager.markDirty pin.1).run s.flat with ⟨e | u, flat⟩ <;>
      rw [hrun] at hmark heq <;> cases heq <;> exact .same (not_ends_call (by rintro _ ⟨⟩) (by rintro _ ⟨⟩)) hmark
  | store handle data =>
    obtain ⟨pin, -, heq⟩ := Option.bind_eq_some_iff.mp h
    split at heq
    · cases heq
      exact .same (not_ends_call (by rintro _ ⟨⟩) (by rintro _ ⟨⟩)) rfl
    · cases heq
  | release handle =>
    obtain ⟨pin, -, heq⟩ := Option.map_eq_some_iff.mp h
    cases heq
    exact .same (not_ends_call (by rintro _ ⟨⟩) (by rintro _ ⟨⟩)) rfl
  | setSystemRoots tables columns indexes indexColumns =>
    exact perform_status (not_ends_call (by rintro _ ⟨⟩) (by rintro _ ⟨⟩)) (FlatPager.keepsStatus_setSystemRoots _ _ _ _)
      (Option.some.inj h)
  | commitTransaction order =>
    exact perform_endsOrFails (FlatPager.endsOrFails_commitTransaction _)
      ⟨order, none, .inl rfl⟩ (Option.some.inj h)
  | rollbackTransaction order =>
    exact perform_endsOrFails (FlatPager.endsOrFails_rollbackTransaction _)
      ⟨order, none, .inr rfl⟩ (Option.some.inj h)
  | markTransactionFailed =>
    have hends : ¬Ends (.markTransactionFailed, r) := not_ends_call (by rintro _ ⟨⟩) (by rintro _ ⟨⟩)
    cases h
    obtain hsame | ⟨h, h', h''⟩ := FlatPager.markTransactionFailed_status s.flat
    · exact .same hends hsame
    · exact .fails hends h h' h''
  | checkpoint order =>
    rw [call] at h
    split at h
    · cases h
    · exact perform_status (not_ends_call (by rintro _ ⟨⟩) (by rintro _ ⟨⟩)) FlatPager.keepsStatus_checkpoint
        (Option.some.inj h)
  | setDiskFaults faults =>
    cases h
    exact .same (not_ends_call (by rintro _ ⟨⟩) (by rintro _ ⟨⟩)) rfl
  | setWalFaults faults =>
    cases h
    exact .same (not_ends_call (by rintro _ ⟨⟩) (by rintro _ ⟨⟩)) rfl

end FlatSession

namespace Session

variable {s s' : Session} {c : Call} {r : Reply} {trace : List (Call × Reply)}

/-! ## Files behind an open outcome -/

/-- The files while the outcome of a commit is open: some first bytes of the
transaction follow the log. -/
structure Pending (s : Session) (log : List LogTransaction) (t : LogTransaction) (n : Nat) :
    Prop where
  before : Recovers s.pager.diskManager log s.abs.flat.committed
  after : Recovers s.pager.diskManager (log ++ [t]) s.abs.flat.active
  wal : s.pager.walManager.fileHandle.bytes =
    WalManager.fileBytes s.abs.flat.committed.header.databaseId log ++ t.encode.take n
  databaseId : s.abs.flat.active.header.databaseId = s.abs.flat.committed.header.databaseId

/-- A session whose files can be opened again, also when a commit has failed. -/
structure Durable (s : Session) : Prop where
  sound : s.Sound
  pending : s.abs.flat.status = .unresolved → s.Fenced ∧ ∃ log t n, s.Pending log t n

/-- Part of the transaction is in the log behind a commit that failed. -/
theorem CommitFailed.pending {log : List LogTransaction} {t : LogTransaction} {n : Nat}
    (h : s.CommitFailed s' log t n) : s'.Pending log t n := by
  have hopen := h.fenced.sound.inv.file.holds.isOpen
  refine ⟨?_, ?_, ?_, ?_⟩
  · rw [h.flat]
    exact h.before.of_bytes hopen h.main
  · rw [h.flat]
    exact h.after.of_bytes hopen h.main
  · rw [h.flat, h.torn, h.wal]
  · rw [h.flat]
    exact h.databaseId

/-- It stays there as long as the files stay. -/
theorem Pending.of_sameFiles {log : List LogTransaction} {t : LogTransaction} {n : Nat}
    (h : s.Pending log t n) (hsound : s'.Sound) (hflat : s'.abs.flat = s.abs.flat)
    (hfiles : s.SameFiles s') : s'.Pending log t n := by
  have hopen := hsound.inv.file.holds.isOpen
  refine ⟨?_, ?_, ?_, ?_⟩
  · rw [hflat]
    exact h.before.of_bytes hopen hfiles.main
  · rw [hflat]
    exact h.after.of_bytes hopen hfiles.main
  · rw [hflat, hfiles.wal, h.wal]
  · rw [hflat]
    exact h.databaseId

/-- A commit that gets as far as the log has an active transaction, none of
whose pages is pinned. -/
theorem Sound.commit_reaches_log (h : s.Sound) {order : IterationOrder PageId}
    (hstep : s.Step (.commitTransaction order) r s') (hne : s'.abs ≠ s.abs) :
    s.abs.flat.status = .active ∧
      ∀ pageId ∈ s.abs.pinned, pageId ∉ s.abs.flat.dirtyPageIds := by
  have hrefused {e : Status}
      (hrun : (Pager.commitTransaction order).run s.pager = (.error e, s.pager)) : False := by
    rw [Step, call, Session.perform, hrun] at hstep
    cases hstep
    exact hne rfl
  obtain ⟨result, hrun, -, ⟨rfl, hactive⟩ | ⟨e, rfl⟩⟩ :=
    Pager.requireActive_run h.inv.isOpen "commit transaction"
  swap
  · exact (hrefused (by rw [Pager.commitTransaction, Proc.bind_run_error hrun])).elim
  have hmem : ∀ pageId ∈ order.visit s.pager.transactionState.dirtyPageIds,
      pageId ∈ s.pager.transactionState.dirtyPageIds := fun _ hp => order.mem_visit.mp hp
  obtain ⟨-, hcheck⟩ | ⟨hall, -⟩ := Pager.requireUnpinned_run h.inv hmem
  · exact (hrefused (by rw [Pager.commitTransaction, Proc.bind_run_ok hrun, Proc.get_bind_run,
      Proc.bind_run_error hcheck])).elim
  refine ⟨hactive, fun pageId hpin hdirty => ?_⟩
  rw [pinned_abs] at hpin
  exact hall pageId (order.mem_visit.mpr hdirty)
    ⟨fun heq => h.inv.header_not_pinned (heq ▸ hpin), hpin⟩

/-- What a call does to the status of the transaction, unless the outcome of a
commit becomes unknown. -/
theorem Sound.statusStep (h : s.Sound) (hstep : s.Step c r s')
    (hknown : s'.abs.flat.status ≠ .unresolved) :
    FlatSession.StatusStep c r s.abs.flat.status s'.abs.flat.status := by
  obtain ⟨-, hanswer | ⟨e, rfl, habs, -⟩ | ⟨order, e, -, -, -, habs⟩⟩ := h.step hstep
  · exact FlatSession.call_status hanswer
  · rw [habs]
    exact .same not_ends_error rfl
  · rw [habs] at hknown
    exact absurd rfl hknown

/-- What is committed is in the files after each call. -/
theorem Durable.step (h : s.Durable) (hstep : s.Step c r s') : s'.Durable := by
  obtain ⟨hsound, houtcome⟩ := h.sound.step hstep
  refine ⟨hsound, fun hun => ?_⟩
  by_cases hbefore : s.abs.flat.status = .unresolved
  · obtain ⟨hfenced, log, t, n, hpending⟩ := h.pending hbefore
    obtain ⟨hfenced', -, hflat⟩ := hfenced.step hstep
    exact ⟨hfenced', log, t, n, hpending.of_sameFiles hsound hflat (hfenced.sameFiles hstep)⟩
  obtain hanswer | ⟨e, -, habs, -⟩ | ⟨order, e, rfl, rfl, -, habs⟩ := houtcome
  · cases FlatSession.call_status hanswer with
    | same _ hsame => exact absurd (hsame.symm.trans hun) hbefore
    | begins _ _ _ hafter => exact absurd (hafter.symm.trans hun) (by decide)
    | ends _ hafter => exact absurd (hafter.symm.trans hun) (by decide)
    | fails _ _ _ hafter => exact absurd (hafter.symm.trans hun) (by decide)
  · rw [habs] at hun
    exact absurd hun hbefore
  · have hne : s'.abs ≠ s.abs := fun heq => hbefore (heq ▸ hun)
    obtain ⟨hactive, hunpinned⟩ := h.sound.commit_reaches_log hstep hne
    obtain ⟨log, t, n, hfailed⟩ := h.sound.commitFailed hactive hunpinned hstep
    exact ⟨hfailed.fenced, log, t, n, hfailed.pending⟩

/-! ## All sessions of a database -/

/-- The sessions that programs can have on a database, one after the other.  No
file is longer than `maxFileSize`. -/
inductive Reachable : Session → Prop
  | create {path : String} {capacity : Nat} {databaseId : UInt64} {pager : Pager}
    (h : Pager.createEmpty path ⟨none, none⟩ capacity databaseId = .ok pager) :
    Reachable (start pager)
  /-- The program that created the database file did not come to write the log. -/
  | interrupted {path : String} {capacity : Nat} {databaseId : UInt64} {wal : Option (List Byte)}
    {order : IterationOrder PageId} {pager : Pager} (hwal : wal.getD [] = [])
    (h : Pager.open order path
      ⟨some (DatabaseHeader.createNew databaseId).image.bytes, wal⟩ capacity = .ok pager) :
    Reachable (start pager)
  | step {s s' : Session} {c : Call} {r : Reply} (h : Reachable s) (hstep : s.Step c r s') :
    Reachable s'
  | reopen {s : Session} {order : IterationOrder PageId} {path : String} {capacity : Nat}
    {pager : Pager} (h : Reachable s)
    (hmax : s.pager.walManager.fileHandle.bytes.length ≤ FileHandle.maxFileSize)
    (hopen : Pager.open order path s.pager.files capacity = .ok pager) :
    Reachable (start pager)

/-- A database that is closed and opened again is one whose files are opened as they
are, so closing needs no case of its own. -/
theorem Reachable.close_open {order : IterationOrder PageId} {path : String} {capacity : Nat}
    {pager : Pager} (h : s.Reachable)
    (hmax : s.pager.walManager.fileHandle.bytes.length ≤ FileHandle.maxFileSize)
    (hopen : Pager.open order path (Pager.close.run s.pager).2.files capacity = .ok pager) :
    Reachable (start pager) :=
  h.reopen hmax (s.pager.close_files ▸ hopen)

/-- It is there when a pager is opened, -/
theorem durable_of_shows {view : PageArray} {log : List LogTransaction} {pager : Pager}
    (h : Pager.Shows view log pager) : (start pager).Durable := by
  refine ⟨(sound_of_shows h).1, fun hun => ?_⟩
  have hflat : (start pager).abs.flat = .settled view := h.abs
  rw [hflat] at hun
  cases hun

/-- The files of a session can be opened, and hold the pages from before the
transaction or from after it if the outcome of its commit is open. -/
theorem Durable.open_files (h : s.Durable) (order : IterationOrder PageId) (path : String)
    {capacity : Nat} (hcapacity : 0 < capacity)
    (hmax : s.pager.walManager.fileHandle.bytes.length ≤ FileHandle.maxFileSize) :
    ∃ log pager view, Pager.open order path s.pager.files capacity = .ok pager ∧
      Pager.Shows view log pager ∧ (view = s.abs.flat.committed ∨
        s.abs.flat.status = .unresolved ∧ view = s.abs.flat.active) := by
  by_cases hun : s.abs.flat.status = .unresolved
  swap
  · obtain ⟨log, pager, hopen, hshows⟩ := h.sound.open_files hun order path hcapacity
    exact ⟨log, pager, _, hopen, hshows, .inl rfl⟩
  obtain ⟨-, log, t, n, hpending⟩ := h.pending hun
  rw [hpending.wal] at hmax
  rw [Pager.files, hpending.wal]
  by_cases hwhole : t.encode.length ≤ n
  · have hbytes : WalManager.fileBytes s.abs.flat.committed.header.databaseId log ++
        t.encode.take n =
          WalManager.fileBytes s.abs.flat.active.header.databaseId (log ++ [t]) ++ [] := by
      rw [List.take_of_length_le hwhole, List.append_nil, WalManager.fileBytes_append,
        hpending.databaseId]
    obtain ⟨pager, hopen, hshows, -⟩ := Pager.open_eq hpending.after order path hcapacity torn_nil
      fun hne => absurd rfl hne
    rw [hbytes]
    exact ⟨log ++ [t], pager, _, hopen, hshows, .inr ⟨hun, rfl⟩⟩
  · obtain ⟨pager, hopen, hshows, -⟩ := Pager.open_eq hpending.before order path hcapacity
      ⟨t, n, Nat.lt_of_not_le hwhole, rfl⟩ fun _ => by rwa [← List.length_append]
    exact ⟨log, pager, _, hopen, hshows, .inl rfl⟩

/-- A file of one page. -/
theorem holds_openOn (path : String) (image : PageData) :
    DiskManager.Holds ⟨.openOn path image.bytes⟩ 1 ∧
      DiskManager.page ⟨.openOn path image.bytes⟩ 0 = image := by
  have hlength : image.bytes.length = pageSize := image.size_eq
  have hblock : Buffer.block pageSize image.bytes 0 = image.bytes := by
    rw [Buffer.block, Nat.zero_mul]
    exact List.take_of_length_le hlength.le
  refine ⟨⟨rfl, hlength.trans (Nat.one_mul _).symm, Nat.one_pos, by decide⟩, ?_⟩
  exact (congrArg Bytes.ofList hblock).trans image.ofList_bytes

/-- also over a database that was being created when it stopped: it has no log. -/
theorem shows_of_interrupted {path : String} {capacity : Nat} {databaseId : UInt64}
    {wal : Option (List Byte)} {order : IterationOrder PageId} {pager : Pager}
    (hwal : wal.getD [] = [])
    (h : Pager.open order path
      ⟨some (DatabaseHeader.createNew databaseId).image.bytes, wal⟩ capacity = .ok pager) :
    Pager.Shows (Pager.emptyView databaseId) [] pager := by
  generalize himage : (DatabaseHeader.createNew databaseId).image = image at h
  obtain ⟨hholds, hpage⟩ := holds_openOn path image
  have hrecovers := Pager.recovers_new hholds (hpage.trans himage.symm)
  obtain ⟨manager, hnew, hopened⟩ :=
    WalManager.openOrCreate_new (Pager.walPath path) databaseId
  have hcreate : WalManager.openOrCreate (Pager.walPath path) wal databaseId = .ok manager := by
    rw [← hnew, WalManager.openOrCreate, WalManager.openOrCreate, hwal, Option.getD_none]
  obtain ⟨pager', hopen, hshows, -⟩ :=
    Pager.open_of_opened hrecovers order path (capacity_pos_of_open h) hcreate hopened
  obtain rfl : pager = pager' := Except.ok.inj (h.symm.trans hopen)
  exact hshows

/-- So it is there in every session there can be. -/
theorem Reachable.durable (h : Reachable s) : s.Durable := by
  induction h with
  | @create path capacity databaseId pager h =>
    obtain ⟨pager', hcreate, hshows⟩ :=
      Pager.createEmpty_eq path (capacity_pos_of_createEmpty h) databaseId
    obtain rfl : pager = pager' := Except.ok.inj (h.symm.trans hcreate)
    exact durable_of_shows hshows
  | interrupted hwal h => exact durable_of_shows (shows_of_interrupted hwal h)
  | step _ hstep ih => exact ih.step hstep
  | @reopen s order path capacity pager _ hmax hopen ih =>
    obtain ⟨log, pager', view, hopen', hshows, -⟩ :=
      ih.open_files order path (capacity_pos_of_open hopen) hmax
    obtain rfl : pager = pager' := Except.ok.inj (hopen.symm.trans hopen')
    exact durable_of_shows hshows

theorem Reachable.sound (h : Reachable s) : s.Sound := h.durable.sound

/-- Calls lead to a session there can be. -/
theorem Reachable.runs (h : Reachable s) (hrun : Runs Step s trace s') : Reachable s' :=
  hrun.preserves (fun _ _ _ _ _ hstep h => h.step hstep) h

end Session

end DanDB.Storage
