import DanDB.Storage.Session

/-!
# Runs of a session

As long as its files do not fail, a session is a run of the flat array of pages
(`Quiet.runs_flat`), and the flat array answers a call in one way only unless
the pool is exhausted.  So the pages a program reads do not depend on the pool.
-/

namespace DanDB.Storage

open DanDB.Core Platform Wal BufferPool

namespace Call

/-- The call writes to neither file. -/
def KeepsStore : Call → Prop
  | commitTransaction _ => False
  | checkpoint _ => False
  | setDiskFaults _ => False
  | setWalFaults _ => False
  | _ => True

/-- What leaves the files alone sets no faults. -/
theorem KeepsStore.quiet {c : Call} (h : c.KeepsStore) : c.Quiet := by
  cases c <;> first | exact trivial | exact h

/-- The same call, whatever the order in which the pager visits its containers. -/
def Same : Call → Call → Prop
  | commitTransaction _, commitTransaction _ => True
  | rollbackTransaction _, rollbackTransaction _ => True
  | checkpoint _, checkpoint _ => True
  | c, c' => c = c'

end Call

/-- Both answers are the same, or both are errors. -/
def Reply.Agrees (r r' : Reply) : Prop :=
  r = r' ∨ ∃ status status', r = .error status ∧ r' = .error status'

/-- No call of a run found the pool without a frame for its page. -/
def NeverExhausted (trace : List (Call × Reply)) : Prop :=
  ∀ entry ∈ trace, entry.2 ≠ .error BufferPoolManager.exhaustedStatus

/-! ## The flat array answers in one way -/

namespace FlatSession

variable {s t t' : FlatSession} {c c' : Call} {r r' : Reply} {trace trace' : List (Call × Reply)}

/-- The order in which dirty pages are visited makes no difference to the flat array. -/
theorem call_same (s : FlatSession) (h : c.Same c') : s.call c = s.call c' := by
  unfold Call.Same at h
  split at h
  · rfl
  · rfl
  · rfl
  · rw [h]

/-- The flat array has one answer to a call, and says no where there is no room. -/
theorem Step.agrees (h : s.Step c r t) (h' : s.Step c' r' t') (hsame : c.Same c')
    (hr : r ≠ .error BufferPoolManager.exhaustedStatus)
    (hr' : r' ≠ .error BufferPoolManager.exhaustedStatus) : r.Agrees r' ∧ t = t' := by
  cases h with
  | answer hcall =>
    cases h' with
    | answer hcall' =>
      rw [call_same s hsame, hcall'] at hcall
      cases hcall
      exact ⟨.inl rfl, rfl⟩
    | getPageExhausted => exact absurd rfl hr'
    | newPageExhausted => exact absurd rfl hr'
    | checkpointTooLarge order status hlarge =>
      rw [call_same s hsame, call, if_pos hlarge] at hcall
      cases hcall
  | getPageExhausted => exact absurd rfl hr
  | newPageExhausted => exact absurd rfl hr
  | checkpointTooLarge order status hlarge =>
    cases h' with
    | answer hcall' =>
      rw [← call_same s hsame, call, if_pos hlarge] at hcall'
      cases hcall'
    | getPageExhausted => exact absurd rfl hr'
    | newPageExhausted => exact absurd rfl hr'
    | checkpointTooLarge order' status' => exact ⟨.inr ⟨status, status', rfl, rfl⟩, rfl⟩

/-- So two runs of the same calls end in the same array. -/
theorem runs_agree (h : Runs Step s trace t) (h' : Runs Step s trace' t')
    (hsame : List.Forall₂ (fun entry entry' => entry.1.Same entry'.1) trace trace')
    (hr : NeverExhausted trace) (hr' : NeverExhausted trace') :
    List.Forall₂ (fun entry entry' => entry.2.Agrees entry'.2) trace trace' ∧ t = t' := by
  induction h generalizing trace' with
  | nil =>
    cases hsame
    cases h'
    exact ⟨.nil, rfl⟩
  | cons head _ ih =>
    cases hsame with
    | cons hcall hsame =>
      cases h' with
      | cons head' tail' =>
        obtain ⟨hreply, rfl⟩ := head.agrees head' hcall (hr _ (List.mem_cons_self ..))
          (hr' _ (List.mem_cons_self ..))
        obtain ⟨hrest, rfl⟩ := ih tail' hsame
          (fun entry hmem => hr entry (List.mem_cons_of_mem _ hmem))
          fun entry hmem => hr' entry (List.mem_cons_of_mem _ hmem)
        exact ⟨.cons hreply hrest, rfl⟩

end FlatSession

namespace Session

/-- The session of a program that has just opened or created a database. -/
def start (pager : Pager) : Session := ⟨pager, []⟩

variable {s s' : Session} {c : Call} {r : Reply} {trace : List (Call × Reply)}

/-- A pager that was opened is sound. -/
theorem sound_of_shows {view : PageArray} {log : List LogTransaction} {pager : Pager}
    (h : Pager.Shows view log pager) : (start pager).Sound ∧ (start pager).NoFaults := by
  have hcommitted : pager.abs.committed = view := by rw [h.abs]; rfl
  refine ⟨⟨h.inv, ?_, ?_, fun _ => ⟨log, h.logs, hcommitted ▸ h.recovers⟩⟩, h.diskFaults,
    h.walFaults⟩
  · intro n status hmem
    have hnil : (start pager).pager.diskManager.fileHandle.faults = [] := h.diskFaults
    rw [hnil] at hmem
    cases hmem
  · exact h.databaseId.trans (congrArg (fun view => view.header.databaseId) hcommitted).symm

/-! ## Steps that do not write -/

section Store

theorem perform_sameStore {x : Proc Status Pager Unit}
    (hx : x.Yields s.pager fun _ pager => Pager.SameStore s.pager pager)
    (hstep : some (s.perform x) = some (r, s')) : Pager.SameStore s.pager s'.pager := by
  cases hstep
  exact hx

theorem acquire_sameStore {x : Proc Status Pager PagePin}
    (hx : x.Yields s.pager fun _ pager => Pager.SameStore s.pager pager)
    (hstep : some (s.acquire x) = some (r, s')) : Pager.SameStore s.pager s'.pager := by
  unfold Proc.Yields at hx
  rw [acquire] at hstep
  rcases hrun : x.run s.pager with ⟨_ | _, pager⟩ <;> rw [hrun] at hx hstep <;> cases hstep <;>
    exact hx

/-- Most calls do not write to the files. -/
theorem Step.sameStore (hstep : s.Step c r s') (h : s.Sound) (hkeeps : c.KeepsStore) :
    Pager.SameStore s.pager s'.pager := by
  rw [Step, call.eq_def] at hstep
  cases c with
  | beginTransaction =>
    exact perform_sameStore ((Pager.beginTransaction_yields h.inv).mono fun _ _ h => h.1) hstep
  | getPage pageId =>
    obtain ⟨hroom, hstep⟩ := call_getPage hstep
    exact acquire_sameStore ((Pager.getPage_yields h.inv pageId
      (hroom.trans (by decide))).mono fun _ _ h => h.1.store) (congrArg some hstep)
  | newPage => exact acquire_sameStore ((Pager.newPage_yields h.inv).mono fun _ _ h => h.1) hstep
  | read handle =>
    obtain ⟨pin, -, heq⟩ := Option.map_eq_some_iff.mp hstep
    cases heq
    exact .refl _
  | mutablePage handle =>
    obtain ⟨pin, hpin, hroom, heq⟩ := call_mutablePage hstep
    have hperm := getElem?_perm hpin
    have hmutable := Pager.mutablePage_yields (h.inv.perm hperm) (handlesOf_perm hperm _ ▸ hroom)
    unfold Proc.Yields at hmutable
    rw [makeMutable] at heq
    rcases hrun : (Pager.mutablePage pin).run s.pager with ⟨_ | _, pager⟩ <;>
      rw [hrun] at hmutable heq <;> cases heq <;> exact hmutable.1
  | store handle data =>
    obtain ⟨pin, hpin, heq⟩ := Option.bind_eq_some_iff.mp hstep
    split at heq
    · cases heq
      exact .withPool _ _
    · cases heq
  | release handle =>
    obtain ⟨pin, -, heq⟩ := Option.map_eq_some_iff.mp hstep
    cases heq
    exact .withPool _ _
  | setSystemRoots tables columns indexes indexColumns =>
    simp only at hstep
    split at hstep
    · rename_i hroots
      exact perform_sameStore ((Pager.setSystemRoots_yields h.inv hroots).mono fun _ _ h => h.1)
        hstep
    · cases hstep
  | rollbackTransaction order =>
    exact perform_sameStore ((Pager.rollbackTransaction_yields order h.inv).mono fun _ _ h => h.1)
      hstep
  | markTransactionFailed =>
    exact perform_sameStore ((Pager.markTransactionFailed_yields h.inv).mono fun _ _ h => h.1)
      hstep
  | commitTransaction order => exact hkeeps.elim
  | checkpoint order => exact hkeeps.elim
  | setDiskFaults faults => exact hkeeps.elim
  | setWalFaults faults => exact hkeeps.elim

end Store

/-! ## Sessions whose files answer every call -/

section Quiet

/-- Files that answer go on answering. -/
theorem Sound.noFaults (h : s.Sound) (hno : s.NoFaults) (hquiet : c.Quiet)
    (hstep : s.Step c r s') : s'.NoFaults := by
  by_cases hkeeps : c.KeepsStore
  · have hsame := hstep.sameStore h hkeeps
    exact ⟨hsame.disk.handle.faults_nil hno.1, by rw [hsame.wal]; exact hno.2⟩
  cases c with
  | commitTransaction order =>
    obtain ⟨log, hlog⟩ := h.exists_log
    have hcommit := Pager.commitTransaction_yields order h.inv fun hactive =>
      (hlog (by rw [hactive]; decide)).1
    cases hstep
    obtain ⟨-, -, hdisk, hwal, -⟩ := hcommit
    exact ⟨hdisk.handle.faults_nil hno.1, hwal.handle.faults_nil hno.2⟩
  | checkpoint order =>
    by_cases hun : s.pager.transactionState.status = .unresolved
    · obtain ⟨e, hrun, -⟩ := Pager.checkpoint_unresolved order hun
      rw [Step, call, Session.perform, hrun] at hstep
      cases hstep
      exact hno
    obtain ⟨log, hlogs, hrecovers⟩ := h.logged hun
    have hcheckpoint := Pager.checkpoint_yields order h.inv hun hlogs hrecovers h.atomic
    cases hstep
    obtain ⟨log', hdone⟩ : ∃ log', Pager.Checkpointed s.pager s.handles log log'
        ((Pager.checkpoint order).run s.pager).2 := by
      obtain ⟨-, hdone, -⟩ | ⟨-, -, hdone⟩ := hcheckpoint
      · exact ⟨[], hdone⟩
      · exact hdone
    exact ⟨hdone.disk.faults_nil hno.1, hdone.wal.handle.faults_nil hno.2⟩
  | setDiskFaults faults => exact hquiet.elim
  | setWalFaults faults => exact hquiet.elim
  | _ => exact absurd trivial hkeeps

/-- A step of a session whose files do not fail is a step of the flat array. -/
theorem Sound.flat_step (h : s.Sound) (hno : s.NoFaults) (hstep : s.Step c r s') :
    s.abs.Step c r s'.abs := by
  obtain ⟨-, hanswer | ⟨status, rfl, habs, hwhy⟩ | ⟨order, status, -, -, hfaults, -⟩⟩ :=
    h.step hstep
  · exact .answer hanswer
  · rw [habs]
    cases hwhy with
    | getPage pageId _ => exact .getPageExhausted _ pageId
    | newPage _ => exact .newPageExhausted _
    | fault _ _ hfault => exact absurd hno hfault
    | tooLarge order _ hlarge => exact .checkpointTooLarge _ order status hlarge
  · exact absurd hno.2 hfaults

/-- A run of a session whose files do not fail is a run of the flat array. -/
theorem flat_runs (hrun : Runs Step s trace s') (h : s.Sound) (hno : s.NoFaults)
    (hquiet : ∀ entry ∈ trace, entry.1.Quiet) :
    Runs FlatSession.Step s.abs trace s'.abs ∧ s'.Sound ∧ s'.NoFaults := by
  obtain ⟨flat, hflat, rfl, h', hno'⟩ := hrun.simulates
    (fun s flat => flat = s.abs ∧ s.Sound ∧ s.NoFaults) (fun c r s s' flat hmem hstep hrel => by
      obtain ⟨rfl, h, hno⟩ := hrel
      exact ⟨s'.abs, h.flat_step hno hstep, rfl, (h.step hstep).1,
        h.noFaults hno (hquiet _ hmem) hstep⟩) ⟨rfl, h, hno⟩
  exact ⟨hflat, h', hno'⟩

end Quiet

/-! ## Opened databases -/

/-- A pager that a program has just created or opened, and the pages of the
database then.  The files it opens are those an earlier session left, if the
outcome of its last commit was known. -/
inductive Starts : PageArray → Pager → Prop
  | create {path : String} {capacity : Nat} {databaseId : UInt64} {pager : Pager}
    (h : Pager.createEmpty path ⟨none, none⟩ capacity databaseId = .ok pager) :
    Starts (Pager.emptyView databaseId) pager
  | reopen {view : PageArray} {pager pager' : Pager} {trace : List (Call × Reply)} {s : Session}
    {order : IterationOrder PageId} {path : String} {capacity : Nat} (hstart : Starts view pager)
    (hrun : Runs Step (start pager) trace s)
    (hknown : s.pager.transactionState.status ≠ .unresolved)
    (h : Pager.open order path s.pager.files capacity = .ok pager') :
    Starts s.pager.abs.committed pager'

theorem Sound.runs (hrun : Runs Step s trace s') (h : s.Sound) : s'.Sound :=
  hrun.preserves (fun _ _ _ _ _ hstep h => (h.step hstep).1) h

/-- A pager has at least one frame. -/
theorem capacity_pos_of_createEmpty {path : String} {files : Pager.Files} {capacity : Nat}
    {databaseId : UInt64} {pager : Pager}
    (h : Pager.createEmpty path files capacity databaseId = .ok pager) : 0 < capacity := by
  refine Nat.pos_of_ne_zero fun hzero => ?_
  rw [Pager.createEmpty, failIf_of hzero] at h
  cases h

theorem capacity_pos_of_open {order : IterationOrder PageId} {path : String} {files : Pager.Files}
    {capacity : Nat} {pager : Pager} (h : Pager.open order path files capacity = .ok pager) :
    0 < capacity := by
  refine Nat.pos_of_ne_zero fun hzero => ?_
  rw [Pager.open, failIf_of hzero] at h
  cases h

/-- The files of a session, when no commit has an unknown outcome. -/
theorem Sound.open_files (h : s.Sound) (hknown : s.pager.transactionState.status ≠ .unresolved)
    (order : IterationOrder PageId) (path : String) {capacity : Nat} (hcapacity : 0 < capacity) :
    ∃ log pager, Pager.open order path s.pager.files capacity = .ok pager ∧
      Pager.Shows s.pager.abs.committed log pager := by
  obtain ⟨log, hlogs, hrecovers⟩ := h.logged hknown
  obtain ⟨pager, hopen, hshows, -⟩ :=
    Pager.open_eq hrecovers order path hcapacity torn_nil fun hne => absurd rfl hne
  refine ⟨log, pager, ?_, hshows⟩
  have hbytes : s.pager.walManager.fileHandle.bytes =
      WalManager.fileBytes s.pager.abs.committed.header.databaseId log ++ [] := by
    rw [hlogs.bytes, h.databaseId, List.append_nil]
    rfl
  rw [Pager.files, hbytes]
  exact hopen

/-- However a pager came to be, it shows the pages and a log of them. -/
theorem Starts.shows {view : PageArray} {pager : Pager} (h : Starts view pager) :
    ∃ log, Pager.Shows view log pager := by
  induction h with
  | @create path capacity databaseId pager h =>
    obtain ⟨pager', hcreate, hshows⟩ :=
      Pager.createEmpty_eq path (capacity_pos_of_createEmpty h) databaseId
    rw [hcreate] at h
    cases h
    exact ⟨[], hshows⟩
  | @reopen view pager pager' trace s order path capacity hstart hrun hknown h ih =>
    obtain ⟨log, hshows⟩ := ih
    have hsound : s.Sound := (sound_of_shows hshows).1.runs hrun
    obtain ⟨log', pager'', hopen, hshows'⟩ :=
      hsound.open_files hknown order path (capacity_pos_of_open h)
    rw [hopen] at h
    cases h
    exact ⟨log', hshows'⟩

theorem Starts.sound {view : PageArray} {pager : Pager} (h : Starts view pager) :
    (start pager).Sound ∧ (start pager).NoFaults ∧ (start pager).abs = ⟨.settled view, []⟩ := by
  obtain ⟨log, hshows⟩ := h.shows
  obtain ⟨hsound, hno⟩ := sound_of_shows hshows
  exact ⟨hsound, hno, congrArg (fun flat => (⟨flat, []⟩ : FlatSession)) hshows.abs⟩

end Session

end DanDB.Storage
