import DanDB.Storage.PageCalls
import DanDB.Storage.SessionRollback

/-!
# Versions

A program keeps something in the pages of a database: `shows` says what pages stand for.
Through transactions, checkpoints and crashes it can rely on an abstract store of what it
keeps: the versions that were committed, and what the transaction has made of the last.

The ledger of the session says which pages hold which version.
-/

namespace DanDB.Storage

open DanDB.Core

/-! ## Transactions without handles -/

namespace FlatPager

variable {flat : FlatPager}

/-- A transaction begins where there is none, -/
theorem beginTransaction_inactive (h : flat.status = .inactive) :
    beginTransaction.run flat = (.ok (), { flat with status := .active }) := by
  rw [beginTransaction, Proc.get_bind_run,
    Proc.bind_run_ok (Proc.failIf_run_of_not _ (not_not_intro h) _), Proc.modify_run]

/-- and nowhere else. -/
theorem beginTransaction_outOfPlace (h : flat.status ≠ .inactive) :
    ∃ status, beginTransaction.run flat = (.error status, flat) :=
  ⟨_, by rw [beginTransaction, Proc.get_bind_run, Proc.bind_run_error (Proc.failIf_run_of _ h _)]⟩

/-- What needs an active transaction is refused without one. -/
theorem requireActive_outOfPlace (verb : String) (h : flat.status ≠ .active) :
    ∃ status, (requireActive verb).run flat = (.error status, flat) := by
  rw [requireActive, Proc.get_bind_run]
  cases hstatus : flat.status with
  | inactive => exact ⟨_, by rw [Proc.bind_run_error (Proc.failIf_run_of _ rfl _)]⟩
  | active => exact absurd hstatus h
  | failed =>
    have hinactive : ¬TransactionStatus.failed = .inactive := by rintro ⟨⟩
    exact ⟨_, by rw [Proc.bind_run_ok (Proc.failIf_run_of_not _ hinactive _),
      Proc.bind_run_error (Proc.failIf_run_of _ rfl _)]⟩
  | unresolved =>
    have hinactive : ¬TransactionStatus.unresolved = .inactive := by rintro ⟨⟩
    have hfailed : ¬TransactionStatus.unresolved = .failed := by rintro ⟨⟩
    exact ⟨_, by rw [Proc.bind_run_ok (Proc.failIf_run_of_not _ hinactive _),
      Proc.bind_run_ok (Proc.failIf_run_of_not _ hfailed _), Proc.failIf_run_of _ rfl _]⟩

theorem commitTransaction_outOfPlace (pinned : List PageId) (h : flat.status ≠ .active) :
    ∃ status, (commitTransaction pinned).run flat = (.error status, flat) := by
  obtain ⟨status, hrun⟩ := requireActive_outOfPlace "commit transaction" h
  exact ⟨status, by rw [commitTransaction, Proc.bind_run_error hrun]⟩

/-- Without a transaction there is nothing to roll back, -/
theorem rollbackTransaction_inactive (pinned : List PageId) (h : flat.status = .inactive) :
    ∃ status, (rollbackTransaction pinned).run flat = (.error status, flat) :=
  ⟨_, by rw [rollbackTransaction, Proc.get_bind_run, Proc.bind_run_error (Proc.failIf_run_of _ h _)]⟩

/-- and nothing that could fail. -/
theorem markTransactionFailed_inactive (h : flat.status = .inactive) :
    ∃ status, markTransactionFailed.run flat = (.error status, flat) :=
  ⟨_, by rw [markTransactionFailed, Proc.get_bind_run, Proc.bind_run_error (Proc.failIf_run_of _ h _)]⟩

theorem markTransactionFailed_begun (h : flat.status ≠ .inactive)
    (hresolved : flat.status ≠ .unresolved) :
    markTransactionFailed.run flat = (.ok (), { flat with status := .failed }) := by
  rw [markTransactionFailed, Proc.get_bind_run, Proc.bind_run_ok (Proc.failIf_run_of_not _ h _),
    Proc.bind_run_ok (Proc.failIf_run_of_not _ hresolved _), Proc.modify_run]

/-- A checkpoint changes none of the pages. -/
theorem checkpoint_resolved (hresolved : flat.status ≠ .unresolved) :
    checkpoint.run flat = (.ok (), flat) := by
  rw [checkpoint, Proc.get_bind_run, Proc.failIf_run_of_not _ hresolved]

end FlatPager

/-! ## The abstract store -/

structure VersionStore (V : Type) where
  /-- What has been committed since the last checkpoint, oldest first, and how long the
  log was then. -/
  versions : List (Nat × V)
  /-- What the transaction sees; it is not known after a call that was turned down. -/
  working : Option V
  status : TransactionStatus

/-- The calls that begin, end or secure a transaction. -/
inductive TransactionCall
  | beginTransaction
  | commitTransaction (order : IterationOrder PageId)
  | rollbackTransaction (order : IterationOrder PageId)
  | markTransactionFailed
  | checkpoint (order : IterationOrder PageId)

/-- The call to the pager. -/
def TransactionCall.call : TransactionCall → PageCall
  | beginTransaction => ⟨.beginTransaction, trivial⟩
  | commitTransaction order => ⟨.commitTransaction order, trivial⟩
  | rollbackTransaction order => ⟨.rollbackTransaction order, trivial⟩
  | markTransactionFailed => ⟨.markTransactionFailed, trivial⟩
  | checkpoint order => ⟨.checkpoint order, trivial⟩

/-- A call that commits nothing. -/
def TransactionCall.Transient : TransactionCall → Prop
  | commitTransaction _ => False
  | checkpoint _ => False
  | _ => True

def TransactionCall.program (c : TransactionCall) : PageProgram Unit := do
  let _ ← PageProgram.perform c.call
  return ()

namespace VersionStore

variable {V : Type}

/-- The version that was committed last. -/
def committed (m : VersionStore V) : Option V := m.versions.getLast?.map Prod.snd

/-- The transaction is not in the state that the call is for. -/
def OutOfPlace (m : VersionStore V) : TransactionCall → Prop
  | .beginTransaction => m.status ≠ .inactive
  | .commitTransaction _ => m.status ≠ .active
  | .rollbackTransaction _ => m.status = .inactive
  | .markTransactionFailed => m.status = .inactive
  | .checkpoint _ => False

/-- The call is answered, and then the store is as follows. -/
inductive Answers (m : VersionStore V) :
    TransactionCall → Except Status Unit → Nat → VersionStore V → Prop
  | outOfPlace {c : TransactionCall} {status : Status} {walSize : Nat} (h : m.OutOfPlace c) :
    Answers m c (.error status) walSize m
  | begins {walSize : Nat} (h : m.status = .inactive) :
    Answers m .beginTransaction (.ok ()) walSize { m with status := .active }
  | commits {v : V} {order : IterationOrder PageId} {walSize : Nat} (h : m.status = .active)
    (hworking : m.working = some v) :
    Answers m (.commitTransaction order) (.ok ()) walSize
      ⟨m.versions ++ [(walSize, v)], some v, .inactive⟩
  | rollsBack {v : V} {order : IterationOrder PageId} {walSize : Nat} (h : m.status ≠ .inactive)
    (hcommitted : m.committed = some v) :
    Answers m (.rollbackTransaction order) (.ok ()) walSize ⟨m.versions, some v, .inactive⟩
  | fails {walSize : Nat} (h : m.status ≠ .inactive) :
    Answers m .markTransactionFailed (.ok ()) walSize { m with status := .failed }
  | checkpoints {v : V} {order : IterationOrder PageId} {walSize : Nat}
    (hcommitted : m.committed = some v) :
    Answers m (.checkpoint order) (.ok ()) walSize { m with versions := [(walSize, v)] }

/-- What a crash leaves that cuts the log to a size. -/
inductive Crashes (m : VersionStore V) (size : Nat) : VersionStore V → Prop
  | mk {walSize : Nat} {v : V}
    (hlast : (m.versions.filter fun version => version.1 ≤ size).getLast? = some (walSize, v)) :
    Crashes m size ⟨m.versions.filter fun version => version.1 ≤ size, some v, .inactive⟩

variable {m m' : VersionStore V}

/-- Only a commit and a checkpoint touch the versions. -/
theorem Answers.versions {c : TransactionCall} {answer : Except Status Unit} {walSize : Nat}
    (h : m.Answers c answer walSize m') (htransient : c.Transient) : m'.versions = m.versions := by
  cases h with
  | commits hstatus hworking => exact htransient.elim
  | checkpoints hcommitted => exact htransient.elim
  | _ => rfl

/-- A rollback goes back to what was committed. -/
theorem Answers.rollback {order : IterationOrder PageId} {walSize : Nat}
    (h : m.Answers (.rollbackTransaction order) (.ok ()) walSize m') :
    m'.working = m.committed ∧ m'.status = .inactive ∧ m'.versions = m.versions := by
  cases h with
  | rollsBack hstatus hcommitted => exact ⟨hcommitted.symm, rfl, rfl⟩

/-- A commit adds the version that the transaction sees. -/
theorem Answers.commit {order : IterationOrder PageId} {walSize : Nat}
    (h : m.Answers (.commitTransaction order) (.ok ()) walSize m') :
    ∃ v, m.working = some v ∧ m' = ⟨m.versions ++ [(walSize, v)], some v, .inactive⟩ := by
  cases h with
  | commits hstatus hworking => exact ⟨_, hworking, rfl⟩

/-- After a crash there is what was committed within what is left of the log. -/
theorem Crashes.versions {size : Nat} (h : m.Crashes size m') :
    m'.versions = (m.versions.filter fun version => version.1 ≤ size) ∧
      m'.working = m'.committed ∧ m'.status = .inactive := by
  cases h with
  | mk hlast => exact ⟨rfl, by rw [committed, hlast]; rfl, rfl⟩

/-- As long as the log keeps all versions, a crash goes back to the last one. -/
theorem Crashes.all {size : Nat} (h : m.Crashes size m')
    (hsizes : ∀ version ∈ m.versions, version.1 ≤ size) :
    m'.working = m.committed ∧ m'.status = .inactive ∧ m'.versions = m.versions := by
  obtain ⟨hversions, hworking, hstatus⟩ := h.versions
  rw [List.filter_eq_self.mpr fun version hmem => decide_eq_true (hsizes version hmem)] at hversions
  exact ⟨by rw [hworking, committed, committed, hversions], hstatus, hversions⟩

end VersionStore

/-! ## The session and the store -/

open PageProgram Platform Wal

variable {V : Type} {shows : PageArray → V → Prop} {s s' : Session} {m : VersionStore V}
  {ledger : Ledger}

/-- The entry of the ledger holds the version. -/
def Matches (shows : PageArray → V → Prop) (entry : Nat × PageArray) (version : Nat × V) : Prop :=
  entry.1 = version.1 ∧ shows entry.2 version.2

/-- The session is in the state of the store. -/
structure Tracks (shows : PageArray → V → Prop) (s : Session) (m : VersionStore V)
    (ledger : Ledger) : Prop where
  recorded : ∃ log, s.Recorded ledger log
  handles : s.handles = []
  status : s.abs.flat.status = m.status
  resolved : m.status ≠ .unresolved
  versions : List.Forall₂ (Matches shows) ledger m.versions
  working : ∀ v ∈ m.working, shows s.abs.flat.active v

/-- The last entry of the ledger is the last version. -/
theorem last_matches {ledger : Ledger} {versions : List (Nat × V)} {view : PageArray}
    (h : List.Forall₂ (Matches shows) ledger versions) (hlast : ledger.last = some view) :
    ∃ walSize v, versions.getLast? = some (walSize, v) ∧ shows view v := by
  induction h with
  | nil => cases hlast
  | @cons entry version ledger versions hmatches hrest ih =>
    cases hrest with
    | nil =>
      obtain ⟨-, hshows⟩ := hmatches
      cases hlast
      exact ⟨version.1, version.2, rfl, hshows⟩
    | @cons entry' version' ledger versions hmatches' hrest =>
      rw [Ledger.last, List.getLast?_cons_cons] at hlast
      rw [List.getLast?_cons_cons]
      exact ih hlast

theorem versions_le {ledger : Ledger} {versions : List (Nat × V)} {size : Nat}
    (h : List.Forall₂ (Matches shows) ledger versions) (hle : ∀ entry ∈ ledger, entry.1 ≤ size) :
    ∀ version ∈ versions, version.1 ≤ size := by
  induction h with
  | nil => exact nofun
  | cons hmatches _ ih =>
    obtain ⟨hfirst, hrest⟩ := List.forall_mem_cons.mp hle
    exact List.forall_mem_cons.mpr ⟨hmatches.1 ▸ hfirst, ih hrest⟩

theorem handles_of_abs (h : s.abs.handles = []) : s.handles = [] := List.map_eq_nil_iff.mp h

namespace Tracks

variable (h : Tracks shows s m ledger)

include h

/-- The ledger ends with the committed pages. -/
theorem last : ledger.last = some s.abs.flat.committed := by
  obtain ⟨log, hrecorded⟩ := h.recorded
  exact hrecorded.last

/-- The last version is what the committed pages show. -/
theorem committed : ∃ v, m.committed = some v ∧ shows s.abs.flat.committed v := by
  obtain ⟨walSize, v, hlast, hshows⟩ := last_matches h.versions h.last
  exact ⟨v, by rw [VersionStore.committed, hlast]; rfl, hshows⟩

theorem sound : s.Sound := by
  obtain ⟨log, hrecorded⟩ := h.recorded
  exact hrecorded.sound

theorem noFaults : s.NoFaults := by
  obtain ⟨log, hrecorded⟩ := h.recorded
  exact hrecorded.noFaults

/-- No handle is left between two calls of a program. -/
theorem abs_eq : s.abs = ⟨s.abs.flat, []⟩ := by
  rw [Session.abs, h.handles]
  rfl

/-- No version is longer than the log. -/
theorem versions_le : ∀ version ∈ m.versions, version.1 ≤ s.walSize := by
  obtain ⟨log, hrecorded⟩ := h.recorded
  have hsizes := hrecorded.journal.sizes
  rw [← hrecorded.logs.bytes] at hsizes
  exact Storage.versions_le h.versions hsizes

end Tracks

/-! ## Programs on pages -/

section Programs

variable {α : Type} {x : PageProgram α} {post : Except Status α → PageArray → Prop}

/-- A program starts with no handle. -/
theorem Tracks.at_context (h : Tracks shows s m ledger) :
    (PageContext.top m.status).At s.abs.flat.active s.abs :=
  ⟨rfl, h.status, by rw [h.abs_eq]; rfl⟩

/-- What a program yields on the flat array, it yields: it ends. -/
theorem Tracks.exists_run (h : Tracks shows s m ledger)
    (hyields : Yields (.top m.status) x s.abs.flat.active post) :
    ∃ calls r s', x.run Session.machine s = some (calls, r, s') := by
  obtain ⟨calls, r, s', -, hrun, -⟩ :=
    (hyields s.abs h.at_context).run Session.implements ⟨h.sound, h.noFaults, rfl⟩
  exact ⟨calls, r, s', hrun⟩

/-- The session came to a call that it had no room for. -/
def TurnedDown (s : Session) (calls : List (PageCall × Reply)) : Prop :=
  Program.Meets Session.machine (fun t c r => t.TurnsDown c.1 r) s calls

/-- A program on pages that leaves the files alone. -/
theorem Tracks.run (h : Tracks shows s m ledger) (hx : x.Only PageCall.KeepsStore)
    (hyields : Yields (.top m.status) x s.abs.flat.active post) {calls : List (PageCall × Reply)}
    {r : Except Status α} (hrun : x.run Session.machine s = some (calls, r, s')) :
    (post r s'.abs.flat.active ∨ TurnedDown s calls ∧ ∃ status, r = .error status) ∧
    ∀ working, (∀ v ∈ working, shows s'.abs.flat.active v) →
      Tracks shows s' ⟨m.versions, working, m.status⟩ ledger := by
  obtain ⟨calls', r', t', flat', hrun', ⟨-, -, rfl⟩, hend⟩ :=
    (hyields s.abs h.at_context).run Session.implements ⟨h.sound, h.noFaults, rfl⟩
  rw [hrun] at hrun'
  cases hrun'
  have hkeeps : s.abs.Keeps s'.abs := hend.elim (·.1) (·.2.1)
  refine ⟨hend.imp (·.2) fun hend => ⟨hend.1, hend.2.2⟩, fun working hworking => ?_⟩
  refine ⟨Session.Recorded.run_keepsStore h.recorded hx hrun, ?_, ?_, h.resolved, h.versions,
    hworking⟩
  · exact handles_of_abs (hkeeps.handles.trans (by rw [h.abs_eq]))
  · exact hkeeps.status.trans h.status

end Programs

/-! ## Transactions -/

namespace TransactionCall

variable {α : Type} {c : TransactionCall}

/-- The call of a transaction is one call to the pager. -/
theorem run_program_bind {a : α} {calls : List (PageCall × Reply)} {r : Except Status α}
    (hrun : (c.program >>= fun _ => return a).run Session.machine s = some (calls, r, s')) :
    ∃ reply, s.call c.call.1 = some (reply, s') ∧ r = (reply.map fun _ => ()).map (fun _ => a) ∧
      calls = [(c.call, reply)] := by
  obtain ⟨⟨reply, t⟩, hcall, hrun⟩ := Option.bind_eq_some_iff.mp hrun
  refine ⟨reply, ?_⟩
  cases reply with
  | error status =>
    cases hrun
    exact ⟨hcall, rfl, rfl⟩
  | ok page =>
    cases hrun
    exact ⟨hcall, rfl, rfl⟩

/-- A call of a transaction ends. -/
theorem exists_run_program_bind (s : Session) (c : TransactionCall) (a : α) :
    ∃ calls r s', (c.program >>= fun _ => return a).run Session.machine s = some (calls, r, s') := by
  have hrun {reply : Reply} {t : Session} (hcall : s.call c.call.1 = some (reply, t)) :
      ∃ calls r s', (c.program >>= fun _ => return a).run Session.machine s =
        some (calls, r, s') := by
    cases reply with
    | error status => exact ⟨_, _, _, Option.bind_eq_some_iff.mpr ⟨_, hcall, rfl⟩⟩
    | ok page => exact ⟨_, _, _, Option.bind_eq_some_iff.mpr ⟨_, hcall, rfl⟩⟩
  cases c <;> exact hrun rfl

end TransactionCall

/-- The call was made and the store answers it. -/
def Answered (shows : PageArray → V → Prop) (m : VersionStore V) (c : TransactionCall)
    (reply : Reply) (s' : Session) : Prop :=
  ∃ m' ledger', m.Answers c (reply.map fun _ => ()) s'.walSize m' ∧ Tracks shows s' m' ledger'

namespace Tracks

variable (h : Tracks shows s m ledger)

include h

/-- A procedure of the flat array that has one answer. -/
theorem performs {c : Call} {reply : Reply} {flat : FlatPager} {x : Proc Status FlatPager Unit}
    {result : Except Status Unit}
    (honly : ∀ r t, s.abs.Step c r t → s.abs.perform x = (r, t)) (hquiet : c.Quiet)
    (hx : x.run s.abs.flat = (result, flat)) (hcall : s.call c = some (reply, s')) :
    reply = Session.answer result ∧ s'.abs.flat = flat ∧ s'.handles = [] ∧
      ∃ log, s'.Recorded (Session.record ledger s c reply s') log := by
  have hperform := honly _ _ (h.sound.flat_step h.noFaults hcall)
  rw [FlatSession.perform, hx, h.abs_eq] at hperform
  obtain ⟨hreply, habs⟩ := Prod.mk.inj hperform
  obtain ⟨log, hrecorded⟩ := h.recorded
  refine ⟨hreply.symm, (congrArg FlatSession.flat habs).symm, handles_of_abs ?_,
    hrecorded.step hquiet hcall⟩
  exact (congrArg FlatSession.handles habs).symm

/-- A call at the wrong time changes nothing. -/
theorem outOfPlace {c : Call} {c' : TransactionCall} {reply : Reply}
    {x : Proc Status FlatPager Unit}
    (honly : ∀ r t, s.abs.Step c r t → s.abs.perform x = (r, t)) (hquiet : c.Quiet)
    (hx : ∃ status, x.run s.abs.flat = (.error status, s.abs.flat))
    (hcall : s.call c = some (reply, s')) (hplace : m.OutOfPlace c') :
    Answered shows m c' reply s' := by
  obtain ⟨status, hx⟩ := hx
  obtain ⟨rfl, hflat, hhandles, hrecorded⟩ := h.performs honly hquiet hx hcall
  refine ⟨m, ledger, .outOfPlace hplace, ?_, hhandles, hflat ▸ h.status, h.resolved, h.versions,
    hflat ▸ h.working⟩
  rwa [Session.answer, Except.map, Session.record_error] at hrecorded

theorem beginTransaction {reply : Reply} (hcall : s.call .beginTransaction = some (reply, s')) :
    Answered shows m .beginTransaction reply s' := by
  have honly : ∀ r t, s.abs.Step .beginTransaction r t →
      s.abs.perform FlatPager.beginTransaction = (r, t) := by
    intro r t hstep
    cases hstep with
    | answer hanswer => exact Option.some.inj hanswer
  by_cases hstatus : m.status = .inactive
  · obtain ⟨rfl, hflat, hhandles, hrecorded⟩ := h.performs honly trivial
      (FlatPager.beginTransaction_inactive (h.status.trans hstatus)) hcall
    refine ⟨_, ledger, .begins hstatus, hrecorded, hhandles, ?_, by rintro ⟨⟩, h.versions, ?_⟩
    · rw [hflat]
    · rw [hflat]
      exact h.working
  · exact h.outOfPlace honly trivial
      (FlatPager.beginTransaction_outOfPlace (h.status ▸ hstatus)) hcall hstatus

theorem commitTransaction {order : IterationOrder PageId} {reply : Reply}
    (hknown : m.working ≠ none) (hcall : s.call (.commitTransaction order) = some (reply, s')) :
    Answered shows m (.commitTransaction order) reply s' := by
  have hpinned : s.abs.pinned = [] := by rw [h.abs_eq]; rfl
  have honly : ∀ r t, s.abs.Step (.commitTransaction order) r t →
      s.abs.perform (FlatPager.commitTransaction []) = (r, t) := by
    intro r t hstep
    cases hstep with
    | answer hanswer =>
      rw [FlatSession.call, hpinned] at hanswer
      exact Option.some.inj hanswer
  by_cases hstatus : m.status = .active
  · obtain ⟨rfl, hflat, hhandles, hrecorded⟩ := h.performs honly trivial
      (FlatPager.commitTransaction_active (h.status.trans hstatus) (by rintro _ ⟨⟩)) hcall
    obtain ⟨v, hworking⟩ := Option.ne_none_iff_exists'.mp hknown
    have hshows := h.working v hworking
    refine ⟨_, _, .commits hstatus hworking, hrecorded, hhandles, ?_, by rintro ⟨⟩, ?_, ?_⟩
    · rw [hflat]
      rfl
    · exact List.rel_append h.versions (.cons ⟨rfl, hshows⟩ .nil)
    · rintro _ ⟨⟩
      rw [hflat]
      exact hshows
  · exact h.outOfPlace honly trivial
      (FlatPager.commitTransaction_outOfPlace [] (h.status ▸ hstatus)) hcall hstatus

theorem rollbackTransaction {order : IterationOrder PageId} {reply : Reply}
    (hcall : s.call (.rollbackTransaction order) = some (reply, s')) :
    Answered shows m (.rollbackTransaction order) reply s' := by
  have hpinned : s.abs.pinned = [] := by rw [h.abs_eq]; rfl
  have honly : ∀ r t, s.abs.Step (.rollbackTransaction order) r t →
      s.abs.perform (FlatPager.rollbackTransaction []) = (r, t) := by
    intro r t hstep
    cases hstep with
    | answer hanswer =>
      rw [FlatSession.call, hpinned] at hanswer
      exact Option.some.inj hanswer
  by_cases hstatus : m.status = .inactive
  · exact h.outOfPlace honly trivial
      (FlatPager.rollbackTransaction_inactive [] (h.status.trans hstatus)) hcall hstatus
  · have hbegun : s.abs.flat.status = .active ∨ s.abs.flat.status = .failed := by
      have hresolved := h.resolved
      rw [h.status]
      cases hm : m.status with
      | inactive => exact absurd hm hstatus
      | active => exact .inl rfl
      | failed => exact .inr rfl
      | unresolved => exact absurd hm hresolved
    obtain hrun | ⟨-, _, hmem, -⟩ := FlatPager.rollbackTransaction_cases [] hbegun
    swap
    · cases hmem
    obtain ⟨rfl, hflat, hhandles, hrecorded⟩ := h.performs honly trivial hrun hcall
    obtain ⟨v, hcommitted, hshows⟩ := h.committed
    refine ⟨_, ledger, .rollsBack hstatus hcommitted, hrecorded, hhandles, ?_, by rintro ⟨⟩,
      h.versions, ?_⟩
    · rw [hflat]
      rfl
    · rintro _ ⟨⟩
      rw [hflat]
      exact hshows

theorem markTransactionFailed {reply : Reply}
    (hcall : s.call .markTransactionFailed = some (reply, s')) :
    Answered shows m .markTransactionFailed reply s' := by
  have honly : ∀ r t, s.abs.Step .markTransactionFailed r t →
      s.abs.perform FlatPager.markTransactionFailed = (r, t) := by
    intro r t hstep
    cases hstep with
    | answer hanswer => exact Option.some.inj hanswer
  by_cases hstatus : m.status = .inactive
  · exact h.outOfPlace honly trivial
      (FlatPager.markTransactionFailed_inactive (h.status.trans hstatus)) hcall hstatus
  · obtain ⟨rfl, hflat, hhandles, hrecorded⟩ := h.performs honly trivial
      (FlatPager.markTransactionFailed_begun (h.status ▸ hstatus) (h.status ▸ h.resolved)) hcall
    refine ⟨_, ledger, .fails hstatus, hrecorded, hhandles, ?_, by rintro ⟨⟩, h.versions, ?_⟩
    · rw [hflat]
    · rw [hflat]
      exact h.working

/-- A checkpoint is answered, or the database is too large for a file. -/
theorem checkpoint {order : IterationOrder PageId} {reply : Reply}
    (hcall : s.call (.checkpoint order) = some (reply, s')) :
    Answered shows m (.checkpoint order) reply s' ∨
      s.TurnsDown (.checkpoint order) reply ∧ (∃ status, reply = .error status) ∧
        Tracks shows s' m ledger := by
  obtain ⟨log, hrecorded⟩ := h.recorded
  have hrecorded' := hrecorded.step (by trivial) hcall
  have hstep := h.sound.flat_step h.noFaults hcall
  generalize hs' : s'.abs = t at hstep
  cases hstep with
  | checkpointTooLarge order status hlarge =>
    have hflat : s'.abs.flat = s.abs.flat := by rw [hs']
    refine .inr ⟨.tooLarge order status hlarge, ⟨status, rfl⟩, ?_, ?_, hflat ▸ h.status, h.resolved,
      h.versions, hflat ▸ h.working⟩
    · rwa [Session.record_error] at hrecorded'
    · exact handles_of_abs (by rw [hs', h.abs_eq])
  | answer hanswer =>
    rw [FlatSession.call] at hanswer
    split at hanswer
    · cases hanswer
    rw [FlatSession.perform, FlatPager.checkpoint_resolved (h.status ▸ h.resolved)] at hanswer
    obtain ⟨rfl, rfl⟩ := Prod.mk.inj (Option.some.inj hanswer)
    have hflat : s'.abs.flat = s.abs.flat := by rw [hs']
    obtain ⟨v, hcommitted, hshows⟩ := h.committed
    change ∃ log, s'.Recorded (ledger.last.map fun view => (s'.walSize, view)).toList log at hrecorded'
    rw [h.last] at hrecorded'
    exact .inl ⟨_, _, .checkpoints hcommitted, hrecorded',
      handles_of_abs (by rw [hs', h.abs_eq]), hflat ▸ h.status, h.resolved,
      .cons ⟨rfl, hshows⟩ .nil, hflat ▸ h.working⟩

/-- The transaction is answered, or the database is too large for a checkpoint. -/
theorem transaction {c : TransactionCall} {reply : Reply}
    (hknown : ∀ order, c = .commitTransaction order → m.working ≠ none)
    (hcall : s.call c.call.1 = some (reply, s')) :
    Answered shows m c reply s' ∨ s.TurnsDown c.call.1 reply ∧
      (∃ status, reply = .error status) ∧ Tracks shows s' m ledger := by
  cases c with
  | beginTransaction => exact .inl (h.beginTransaction hcall)
  | commitTransaction order => exact .inl (h.commitTransaction (hknown order rfl) hcall)
  | rollbackTransaction order => exact .inl (h.rollbackTransaction hcall)
  | markTransactionFailed => exact .inl (h.markTransactionFailed hcall)
  | checkpoint order => exact h.checkpoint hcall

/-- The files open after a crash that leaves the header of the log. -/
theorem open_crash {size : Nat} (hsize : WalHeader.walHeaderSize ≤ size)
    (hmax : (s.pager.walManager.fileHandle.bytes.take size).length ≤ FileHandle.maxFileSize)
    (order : IterationOrder PageId) (path : String) {capacity : Nat} (hcapacity : 0 < capacity) :
    ∃ pager, Pager.open order path (s.crash size) capacity = .ok pager ∧
      ∃ m' ledger', m.Crashes size m' ∧ Tracks shows (Session.start pager) m' ledger' := by
  obtain ⟨log, hrecorded⟩ := h.recorded
  obtain ⟨pager, view, hopen, hlast, habs, hrecorded'⟩ :=
    hrecorded.open_crash hsize hmax order path hcapacity
  have hflat : (Session.start pager).abs.flat = .settled view := habs
  have hversions : List.Forall₂ (Matches shows) (ledger.within size)
      (m.versions.filter fun version => version.1 ≤ size) := by
    refine List.rel_filter ?_ h.versions
    rintro entry version ⟨hsizes, -⟩
    simp only [hsizes]
  obtain ⟨walSize, v, hlast', hshows⟩ := last_matches hversions hlast
  refine ⟨pager, hopen, _, _, .mk hlast', hrecorded', rfl, ?_, by rintro ⟨⟩, hversions, ?_⟩
  · rw [hflat]
    rfl
  · rintro _ ⟨⟩
    rw [hflat]
    exact hshows

end Tracks

/-! ## The start -/

/-- A new database has one version. -/
theorem tracks_start {path : String} {capacity : Nat} {databaseId : UInt64} {pager : Pager} {v : V}
    (h : Pager.createEmpty path ⟨none, none⟩ capacity databaseId = .ok pager)
    (hshows : shows (Pager.emptyView databaseId) v) :
    Tracks shows (Session.start pager)
      ⟨[(WalHeader.walHeaderSize, v)], some v, .inactive⟩
      [(WalHeader.walHeaderSize, Pager.emptyView databaseId)] := by
  have hrecorded := Session.recorded_of_create h
  obtain ⟨pager', hcreate, hpager⟩ :=
    Pager.createEmpty_eq path (Session.capacity_pos_of_createEmpty h) databaseId
  rw [hcreate] at h
  cases h
  have hflat : (Session.start pager).abs.flat = .settled (Pager.emptyView databaseId) := hpager.abs
  refine ⟨hrecorded, rfl, ?_, by rintro ⟨⟩, .cons ⟨rfl, hshows⟩ .nil, ?_⟩
  · rw [hflat]
    rfl
  · rintro _ ⟨⟩
    rw [hflat]
    exact hshows

end DanDB.Storage
