import DanDB.Lib.Runs
import DanDB.Storage.PagerCheckpoint

/-!
# Sessions

A program that uses a pager: the pager together with the handles the program
holds, and the calls it can make.  A call that names a handle names it by its
position.  The same calls on the flat array of pages say what the answers should
be.
-/

namespace DanDB.Storage

open DanDB.Core Platform Wal BufferPool

/-- A call to the pager or to a page handle. -/
inductive Call where
  | beginTransaction
  | getPage (pageId : PageId)
  | newPage
  /-- Look at the page of a handle. -/
  | read (handle : Nat)
  | mutablePage (handle : Nat)
  /-- Assign to the page of a handle that `mutable_page` was called on. -/
  | store (handle : Nat) (data : PageData)
  /-- The handle goes out of scope. -/
  | release (handle : Nat)
  | setSystemRoots (tables columns indexes indexColumns : PageId)
  | commitTransaction (order : IterationOrder PageId)
  | rollbackTransaction (order : IterationOrder PageId)
  | markTransactionFailed
  | checkpoint (order : IterationOrder PageId)
  /-- What the next calls to the operating system do.  No write of a page to the
  database file stops half way. -/
  | setDiskFaults (faults : List (Option Fault))
  | setWalFaults (faults : List (Option Fault))

namespace Call

/-- The call leaves the file system alone. -/
def Quiet : Call → Prop
  | setDiskFaults _ => False
  | setWalFaults _ => False
  | _ => True

end Call

/-- The answer to a call, with the page a new handle shows. -/
abbrev Reply := Except Status (Option Page)

/-- A pager and the handles on its pages. -/
structure Session where
  pager : Pager
  handles : List PagePin

namespace Session

/-- The answer of a procedure that returns nothing. -/
def answer {α : Type} (r : Except Status α) : Reply := r.map fun _ => none

/-- A procedure of the pager that returns nothing. -/
def perform (x : Proc Status Pager Unit) (s : Session) : Reply × Session :=
  (answer (x.run s.pager).1, ⟨(x.run s.pager).2, s.handles⟩)

/-- A procedure of the pager that returns a handle. -/
def acquire (x : Proc Status Pager PagePin) (s : Session) : Reply × Session :=
  match x.run s.pager with
  | (.ok pin, pager) => (.ok (some (pager.page pin)), ⟨pager, pin :: s.handles⟩)
  | (.error status, pager) => (.error status, ⟨pager, s.handles⟩)

/-- `mutable_page` on a handle. -/
def makeMutable (s : Session) (handle : Nat) (pin : PagePin) : Reply × Session :=
  match (Pager.mutablePage pin).run s.pager with
  | (.ok pin, pager) => (.ok none, ⟨pager, s.handles.set handle pin⟩)
  | (.error status, pager) => (.error status, ⟨pager, s.handles⟩)

/-- How many handles point to a page. -/
def handlesOf (s : Session) (pageId : PageId) : Nat :=
  (s.pager.pinned s.handles).count pageId

/-- No write of the schedule stops half way. -/
def faultsAreAtomic (faults : List (Option Fault)) : Bool :=
  faults.all fun
    | some ⟨.torn _, _⟩ => false
    | _ => true

/-- How many handles may point to a page.  A frame counts its pins in 32 bits, and
`mark_dirty` pins a page once more to copy it. -/
def maxHandles : Nat := maxPins - 1

/-- The answer to a call and the session afterwards, when the call can be made:
the handle it names exists, a store has a mutable page, the roots of the system
tables are pages, and no page has more handles than its frame can count.  What happens
with more is said by `respond`. -/
def call (s : Session) : Call → Option (Reply × Session)
  | .beginTransaction => some (s.perform Pager.beginTransaction)
  | .getPage pageId =>
    if s.handlesOf pageId < maxHandles then some (s.acquire (Pager.getPage pageId)) else none
  | .newPage => some (s.acquire Pager.newPage)
  | .read handle => s.handles[handle]?.map fun pin => (.ok (some (s.pager.page pin)), s)
  | .mutablePage handle => s.handles[handle]?.bind fun pin =>
    if s.handlesOf (s.pager.pinId pin) < maxPins then some (s.makeMutable handle pin) else none
  | .store handle data => s.handles[handle]?.bind fun pin =>
    if pin.isDirty then some (s.perform (Pager.store pin data)) else none
  | .release handle => s.handles[handle]?.map fun pin =>
    let released := s.perform (Pager.release pin)
    (released.1, ⟨released.2.pager, s.handles.eraseIdx handle⟩)
  | .setSystemRoots tables columns indexes indexColumns =>
    if (s.pager.dbHeader.withRoots tables columns indexes indexColumns).Valid then
      some (s.perform (Pager.setSystemRoots tables columns indexes indexColumns))
    else none
  | .commitTransaction order => some (s.perform (Pager.commitTransaction order))
  | .rollbackTransaction order => some (s.perform (Pager.rollbackTransaction order))
  | .markTransactionFailed => some (s.perform Pager.markTransactionFailed)
  | .checkpoint order => some (s.perform (Pager.checkpoint order))
  | .setDiskFaults faults =>
    if faultsAreAtomic faults then
      some (.ok none, { s with pager := { s.pager with
        diskManager := ⟨{ s.pager.diskManager.fileHandle with faults := faults }⟩ } })
    else none
  | .setWalFaults faults =>
    some (.ok none, { s with pager := { s.pager with
      walManager := { s.pager.walManager with
        fileHandle := { s.pager.walManager.fileHandle with faults := faults } } } })

/-- The answer to a call, however many handles point to a page. -/
def respond (s : Session) : Call → Option (Reply × Session)
  | .getPage pageId => some (s.acquire (Pager.getPage pageId))
  | .mutablePage handle => s.handles[handle]?.map (s.makeMutable handle)
  | c => s.call c

/-- One step of a session. -/
def Step (s : Session) (c : Call) (r : Reply) (s' : Session) : Prop := s.call c = some (r, s')

theorem call_getPage {s : Session} {pageId : PageId} {x : Reply × Session}
    (h : s.call (.getPage pageId) = some x) :
    s.handlesOf pageId < maxHandles ∧ s.acquire (Pager.getPage pageId) = x := by
  rw [call] at h
  split at h
  · exact ⟨‹_›, Option.some.inj h⟩
  · cases h

theorem call_mutablePage {s : Session} {handle : Nat} {x : Reply × Session}
    (h : s.call (.mutablePage handle) = some x) :
    ∃ pin, s.handles[handle]? = some pin ∧ s.handlesOf (s.pager.pinId pin) < maxPins ∧
      s.makeMutable handle pin = x := by
  obtain ⟨pin, hpin, h⟩ := Option.bind_eq_some_iff.mp h
  split at h
  · exact ⟨pin, hpin, ‹_›, Option.some.inj h⟩
  · cases h

/-- What can be called is answered so. -/
theorem respond_of_call {s : Session} {c : Call} {x : Reply × Session} (h : s.call c = some x) :
    s.respond c = some x := by
  cases c with
  | getPage pageId => exact congrArg some (call_getPage h).2
  | mutablePage handle =>
    obtain ⟨pin, hpin, -, rfl⟩ := call_mutablePage h
    rw [respond, hpin, Option.map_some]
  | _ => exact h

end Session

/-- A flat array of pages with the pages that handles point to, and whether they
may be written. -/
structure FlatSession where
  flat : FlatPager
  handles : List (PageId × Bool)

namespace FlatSession

/-- The pages that handles point to. -/
def pinned (s : FlatSession) : List PageId := s.handles.map Prod.fst

/-- How many handles point to a page. -/
def handlesOf (s : FlatSession) (pageId : PageId) : Nat := s.pinned.count pageId

/-- The page of a handle. -/
def page (s : FlatSession) (pageId : PageId) : Page :=
  ⟨pageId, (s.flat.active.page pageId).getD .zero⟩

def perform (x : Proc Status FlatPager Unit) (s : FlatSession) : Reply × FlatSession :=
  (Session.answer (x.run s.flat).1, ⟨(x.run s.flat).2, s.handles⟩)

/-- The committed pages do not fit in a file. -/
def TooLarge (s : FlatSession) : Prop :=
  s.flat.committed.header.pageCount.toNat * pageSize > FileHandle.maxFileSize

instance (s : FlatSession) : Decidable s.TooLarge := inferInstanceAs (Decidable (_ > _))

/-- The answers the flat array gives.  It has none to a checkpoint of a database
that is too large for a file. -/
def call (s : FlatSession) : Call → Option (Reply × FlatSession)
  | .beginTransaction => some (s.perform FlatPager.beginTransaction)
  | .getPage pageId => some
    (match (FlatPager.getPage pageId).run s.flat with
      | (.ok data, flat) => (.ok (some ⟨pageId, data⟩), ⟨flat, (pageId, false) :: s.handles⟩)
      | (.error status, flat) => (.error status, ⟨flat, s.handles⟩))
  | .newPage => some
    (match FlatPager.newPage.run s.flat with
      | (.ok pageId, flat) => (.ok (some (.ofId pageId)), ⟨flat, (pageId, true) :: s.handles⟩)
      | (.error status, flat) => (.error status, ⟨flat, s.handles⟩))
  | .read handle => s.handles[handle]?.map fun pin => (.ok (some (s.page pin.1)), s)
  | .mutablePage handle => s.handles[handle]?.map fun pin =>
    match (FlatPager.markDirty pin.1).run s.flat with
    | (.ok _, flat) => (.ok none, ⟨flat, s.handles.set handle (pin.1, true)⟩)
    | (.error status, flat) => (.error status, ⟨flat, s.handles⟩)
  | .store handle data => s.handles[handle]?.bind fun pin =>
    if pin.2 then some (.ok none, ⟨s.flat.store pin.1 data, s.handles⟩) else none
  | .release handle => s.handles[handle]?.map fun _ =>
    (.ok none, ⟨s.flat, s.handles.eraseIdx handle⟩)
  | .setSystemRoots tables columns indexes indexColumns =>
    some (s.perform (FlatPager.setSystemRoots tables columns indexes indexColumns))
  | .commitTransaction _ => some (s.perform (FlatPager.commitTransaction s.pinned))
  | .rollbackTransaction _ => some (s.perform (FlatPager.rollbackTransaction s.pinned))
  | .markTransactionFailed => some (s.perform FlatPager.markTransactionFailed)
  | .checkpoint _ => if s.TooLarge then none else some (s.perform FlatPager.checkpoint)
  | .setDiskFaults _ => some (.ok none, s)
  | .setWalFaults _ => some (.ok none, s)

/-- One step of the flat array on a disk that does not fail.  A call that needs
a frame can find the pool exhausted, and a checkpoint can find the database too
large for a file; neither has an effect. -/
inductive Step : FlatSession → Call → Reply → FlatSession → Prop
  | answer {s s' : FlatSession} {c : Call} {r : Reply} (h : s.call c = some (r, s')) : Step s c r s'
  | getPageExhausted (s : FlatSession) (pageId : PageId) :
    Step s (.getPage pageId) (.error BufferPoolManager.exhaustedStatus) s
  | newPageExhausted (s : FlatSession) :
    Step s .newPage (.error BufferPoolManager.exhaustedStatus) s
  | checkpointTooLarge (s : FlatSession) (order : IterationOrder PageId) (status : Status)
    (h : s.TooLarge) : Step s (.checkpoint order) (.error status) s

end FlatSession

namespace Session

/-- A session as a flat array of pages. -/
def abs (s : Session) : FlatSession :=
  ⟨s.pager.abs, s.handles.map fun pin => (s.pager.pinId pin, pin.isDirty)⟩

/-- What every call keeps: the invariant of the pager, and a file and a log that
hold the committed pages as long as the outcome of the last commit is known. -/
structure Sound (s : Session) : Prop where
  inv : s.pager.Inv s.handles
  atomic : s.pager.diskManager.fileHandle.AtomicWrites
  databaseId : s.pager.walManager.databaseId = s.pager.committedHeader.databaseId
  logged : s.pager.transactionState.status ≠ .unresolved → ∃ log,
    s.pager.walManager.Logs log ∧ Recovers s.pager.diskManager log s.pager.abs.committed

/-- Both files answer every call. -/
def NoFaults (s : Session) : Prop :=
  s.pager.diskManager.fileHandle.faults = [] ∧ s.pager.walManager.fileHandle.faults = []

/-- The failures the flat array does not have. -/
inductive Fails (s : Session) : Call → Status → Prop
  | getPage (pageId : PageId) (h : s.pager.bpm.Exhausted) :
    Fails s (.getPage pageId) BufferPoolManager.exhaustedStatus
  | newPage (h : s.pager.bpm.Exhausted) : Fails s .newPage BufferPoolManager.exhaustedStatus
  | fault (c : Call) (status : Status) (h : ¬s.NoFaults) : Fails s c status
  | tooLarge (order : IterationOrder PageId) (status : Status) (h : s.abs.TooLarge) :
    Fails s (.checkpoint order) status

/-- What a call does to the session, seen as a flat array of pages. -/
inductive Outcome (s : Session) (c : Call) (r : Reply) (s' : Session) : Prop
  | answered (h : s.abs.call c = some (r, s'.abs))
  | failed (status : Status) (hr : r = .error status) (habs : s'.abs = s.abs)
    (hwhy : s.Fails c status)
  | unresolved (order : IterationOrder PageId) (status : Status)
    (hc : c = .commitTransaction order) (hr : r = .error status)
    (hfaults : s.pager.walManager.fileHandle.faults ≠ [])
    (habs : s'.abs = ⟨{ s.abs.flat with status := .unresolved }, s.abs.handles⟩)

section Step

variable {s s' : Session} {c : Call} {r : Reply} {pin : PagePin}

/-- A session stays sound as long as its files do. -/
theorem Sound.of_sameStore (h : s.Sound) (hinv : s'.pager.Inv s'.handles)
    (hsame : Pager.SameStore s.pager s'.pager)
    (husable : s'.pager.transactionState.status ≠ .unresolved →
      s.pager.transactionState.status ≠ .unresolved) : s'.Sound := by
  have hcommitted : s'.pager.abs.committed = s.pager.abs.committed := by
    show (⟨_, _⟩ : PageArray) = ⟨_, _⟩
    rw [hsame.committedHeader, hsame.committedPage]
  refine ⟨hinv, hsame.disk.handle.atomicWrites h.atomic, ?_, fun hstatus => ?_⟩
  · rw [hsame.wal, hsame.committedHeader]
    exact h.databaseId
  · obtain ⟨log, hlogs, hrecovers⟩ := h.logged (husable hstatus)
    rw [hsame.wal, hcommitted]
    exact ⟨log, hlogs, hrecovers.of_sameBytes hsame.disk⟩

/-- The handles of a session, after a step that leaves every pin where it is. -/
theorem handles_of_samePins {pager : Pager} {handles : List PagePin}
    (hpins : Pager.SamePins handles s.pager pager) :
    handles.map (fun pin => (pager.pinId pin, pin.isDirty)) =
      handles.map fun pin => (s.pager.pinId pin, pin.isDirty) :=
  List.map_congr_left fun pin hpin => by rw [hpins pin hpin]

/-- A procedure that returns nothing and does what its namesake does. -/
theorem Sound.perform (h : s.Sound) {x : Proc Status Pager Unit}
    {y : Proc Status FlatPager Unit} (hy : FlatPager.Stuck y)
    (hx : x.Yields s.pager fun r pager' => Pager.SameStore s.pager pager' ∧
      Pager.SamePins s.handles s.pager pager' ∧ pager'.Inv s.handles ∧
      y.run s.pager.abs = (r, pager'.abs))
    (hstep : some (s.perform x) = some (r, s')) :
    s'.Sound ∧ s.abs.perform y = (r, s'.abs) := by
  cases hstep
  obtain ⟨hsame, hpins, hinv, hflat⟩ := hx
  refine ⟨h.of_sameStore hinv hsame fun hstatus => hy.usable hflat hstatus, ?_⟩
  rw [FlatSession.perform, show s.abs.flat = s.pager.abs from rfl, hflat]
  exact congrArg (fun handles => (answer (x.run s.pager).1,
    (⟨(x.run s.pager).2.abs, handles⟩ : FlatSession))) (handles_of_samePins hpins).symm

/-- A page that the flat array has is read from it. -/
theorem flat_getPage_some {flat : FlatPager} {pageId : PageId} {data : PageData}
    (hvalid : pageId ≠ invalidPageId) (hne : pageId ≠ headerPageId)
    (hpage : flat.active.page pageId = some data) :
    (FlatPager.getPage pageId).run flat = (.ok data, flat) := by
  rw [FlatPager.getPage, Proc.get_bind_run,
    Proc.bind_run_ok (Proc.failIf_run_of_not _ (by simp [hvalid, hne]) _), hpage]
  rfl

/-- A handle that was just handed out shows its page as the transaction sees
it. -/
theorem page_of_pin {pager : Pager} {live : List PagePin} (h : pager.Inv live) (hpin : pin ∈ live)
    {pageId : PageId} (hid : pager.pinId pin = pageId) :
    pageId ≠ invalidPageId ∧ pageId ≠ headerPageId ∧
      pager.abs.active.page pageId = some (pager.page pin).data ∧
      pager.page pin = ⟨pageId, (pager.page pin).data⟩ := by
  subst hid
  have hframe := h.pool.inv.pageFrames_pageId (List.mem_map_of_mem hpin)
  exact ⟨(h.pool.inv.mapped _ _ hframe).2.2.2, h.pinId_ne_header hpin, h.activePage_pin hpin, rfl⟩

/-- `get_page` gives a handle on the page of the flat array, or the pool or a file is in the
way. -/
theorem Sound.acquire_getPage (h : s.Sound) {pageId : PageId}
    (hroom : s.handlesOf pageId < maxPins) (hstep : s.acquire (Pager.getPage pageId) = (r, s')) :
    s'.Sound ∧ s.Outcome (.getPage pageId) r s' := by
  have hget := Pager.getPage_yields h.inv pageId hroom
  unfold Proc.Yields at hget
  rw [acquire] at hstep
  rcases hrun : (Pager.getPage pageId).run s.pager with ⟨e | pin, pager⟩
  · rw [hrun] at hget hstep
    cases hstep
    obtain ⟨hread, hinv, hwhy⟩ := hget
    have hs : (⟨pager, s.handles⟩ : Session).abs = s.abs := by
      rw [abs, abs, hread.abs, handles_of_samePins hread.pins]
    refine ⟨h.of_sameStore hinv hread.store fun hstatus => ?_, ?_⟩
    · have hsame : pager.transactionState.status = s.pager.transactionState.status :=
        congrArg FlatPager.status hread.abs
      rwa [← hsame]
    · obtain hflat | ⟨rfl, hfull⟩ | hfaults := hwhy
      · refine .answered ?_
        rw [hs, FlatSession.call, show s.abs.flat = s.pager.abs from rfl, hflat]
        rfl
      · exact .failed _ rfl hs (.getPage pageId hfull)
      · exact .failed _ rfl hs (.fault _ _ fun hno => hfaults.elim (· hno.1) (· hno.2))
  · rw [hrun] at hget hstep
    cases hstep
    obtain ⟨hread, hclean, hinv, hid⟩ : Pager.ReadOnly s.handles s.pager pager ∧
      pin.isDirty = false ∧ pager.Inv (pin :: s.handles) ∧ pager.pinId pin = pageId := hget
    obtain ⟨hvalid, hne, hdata, hpage⟩ := page_of_pin hinv (List.mem_cons_self ..) hid
    refine ⟨h.of_sameStore hinv hread.store fun hstatus => ?_, .answered ?_⟩
    · have hsame : pager.transactionState.status = s.pager.transactionState.status :=
        congrArg FlatPager.status hread.abs
      rwa [← hsame]
    · rw [hread.abs] at hdata
      rw [FlatSession.call, show s.abs.flat = s.pager.abs from rfl,
        flat_getPage_some hvalid hne hdata]
      simp only
      rw [← hpage, abs, abs, hread.abs, List.map_cons, hid, hclean,
        handles_of_samePins hread.pins]

theorem Sound.getPage (h : s.Sound) (pageId : PageId) (hstep : s.Step (.getPage pageId) r s') :
    s'.Sound ∧ s.Outcome (.getPage pageId) r s' := by
  obtain ⟨hroom, hstep⟩ := call_getPage hstep
  exact h.acquire_getPage (hroom.trans (by decide)) hstep

/-- `new_page` gives a handle on the page that the flat array adds. -/
theorem Sound.newPage (h : s.Sound) (hstep : s.Step .newPage r s') :
    s'.Sound ∧ s.Outcome .newPage r s' := by
  have hnew := Pager.newPage_yields h.inv
  unfold Proc.Yields at hnew
  rw [Step, call, acquire] at hstep
  rcases hrun : Pager.newPage.run s.pager with ⟨e | pin, pager⟩
  · rw [hrun] at hnew hstep
    cases hstep
    obtain ⟨-, -, rfl, hwhy⟩ := hnew
    refine ⟨h, ?_⟩
    obtain hflat | ⟨rfl, hfull⟩ | hfaults := hwhy
    · refine .answered ?_
      rw [FlatSession.call, show s.abs.flat = s.pager.abs from rfl, hflat]
      rfl
    · exact .failed _ rfl rfl (.newPage hfull)
    · exact .failed _ rfl rfl (.fault _ _ fun hno => hfaults.elim (· hno.1) (· hno.2))
  · rw [hrun] at hnew hstep
    cases hstep
    obtain ⟨hsame, hpins, hdirty, hinv, hid, hflat⟩ : Pager.SameStore s.pager pager ∧
      Pager.SamePins s.handles s.pager pager ∧ pin.isDirty = true ∧
      pager.Inv (pin :: s.handles) ∧ pager.pinId pin = s.pager.dbHeader.pageCount ∧
      FlatPager.newPage.run s.pager.abs = (.ok s.pager.dbHeader.pageCount, pager.abs) := hnew
    obtain ⟨hvalid, hne, hdata, hpage⟩ := page_of_pin hinv (List.mem_cons_self ..) hid
    rw [FlatPager.newPage_page hflat] at hdata
    refine ⟨h.of_sameStore hinv hsame fun hstatus => FlatPager.stuck_newPage.usable hflat hstatus,
      .answered ?_⟩
    rw [FlatSession.call, show s.abs.flat = s.pager.abs from rfl, hflat]
    simp only
    rw [hpage, ← Option.some.inj hdata, abs, abs, List.map_cons, hid, hdirty,
      handles_of_samePins hpins]
    rfl

/-- The handle a call names, in front of the others. -/
theorem getElem?_perm {handles : List PagePin} {handle : Nat} (h : handles[handle]? = some pin) :
    handles.Perm (pin :: handles.eraseIdx handle) := by
  obtain ⟨hlt, rfl⟩ := List.getElem?_eq_some_iff.mp h
  exact (List.getElem_cons_eraseIdx_perm hlt).symm

/-- The order of the handles does not matter, -/
theorem handlesOf_perm {handles : List PagePin} (h : s.handles.Perm handles) (pageId : PageId) :
    s.handlesOf pageId = (s.pager.pinned handles).count pageId :=
  (h.map s.pager.pinId).count_eq pageId

/-- so a handle that is changed in its place might as well be the first. -/
theorem set_perm {handles : List PagePin} {handle : Nat} (h : handles[handle]? = some pin)
    (pin' : PagePin) : (pin' :: handles.eraseIdx handle).Perm (handles.set handle pin') := by
  obtain ⟨hlt, -⟩ := List.getElem?_eq_some_iff.mp h
  exact (List.set_perm_cons_eraseIdx hlt pin').symm

/-- The flat array has the handle, with its page and its mark. -/
theorem abs_handle {handle : Nat} (h : s.handles[handle]? = some pin) :
    s.abs.handles[handle]? = some (s.pager.pinId pin, pin.isDirty) := by
  rw [abs, List.getElem?_map, h, Option.map_some]

/-- A handle shows the page as the flat array has it. -/
theorem Sound.read (h : s.Sound) {handle : Nat} (hstep : s.Step (.read handle) r s') :
    s'.Sound ∧ s.Outcome (.read handle) r s' := by
  rw [Step, call] at hstep
  obtain ⟨pin, hpin, heq⟩ := Option.map_eq_some_iff.mp hstep
  cases heq
  obtain ⟨-, -, hdata, hpage⟩ := page_of_pin h.inv (List.mem_of_getElem? hpin) rfl
  refine ⟨h, .answered ?_⟩
  rw [FlatSession.call, abs_handle hpin, Option.map_some, FlatSession.page,
    show s.abs.flat.active.page (s.pager.pinId pin) = _ from hdata, Option.getD_some, ← hpage]

/-- The page of a handle is marked as changed. -/
theorem Sound.mutablePage (h : s.Sound) {handle : Nat}
    (hstep : s.Step (.mutablePage handle) r s') :
    s'.Sound ∧ s.Outcome (.mutablePage handle) r s' := by
  obtain ⟨pin, hpin, hroom, heq⟩ := call_mutablePage hstep
  have hperm := getElem?_perm hpin
  have hmutable := Pager.mutablePage_yields (h.inv.perm hperm) (handlesOf_perm hperm _ ▸ hroom)
  unfold Proc.Yields at hmutable
  rw [makeMutable] at heq
  rcases hrun : (Pager.mutablePage pin).run s.pager with ⟨e | pin', pager⟩
  · rw [hrun] at hmutable heq
    cases heq
    obtain ⟨-, -, -, -, ⟨he, -⟩ | ⟨e', he, rfl, hflat⟩⟩ := hmutable
    · cases he
    · cases he
      refine ⟨h, .answered ?_⟩
      rw [FlatSession.call, abs_handle hpin, Option.map_some,
        show s.abs.flat = s.pager.abs from rfl, hflat]
      rfl
  · rw [hrun] at hmutable heq
    cases heq
    obtain ⟨hsame, hpins, -, -, ⟨he, hinv, -, hflat⟩ | ⟨e', he, -⟩⟩ := hmutable
    swap
    · cases he
    cases he
    have hpins' : Pager.SamePins s.handles s.pager pager := fun q hq =>
      hpins q (hperm.mem_iff.mp hq)
    refine ⟨h.of_sameStore (hinv.perm (set_perm hpin _)) hsame fun hstatus =>
      (FlatPager.stuck_markDirty _).usable hflat hstatus, .answered ?_⟩
    rw [FlatSession.call, abs_handle hpin, Option.map_some,
      show s.abs.flat = s.pager.abs from rfl, hflat]
    simp only
    rw [abs, abs, List.map_set, handles_of_samePins hpins',
      show pager.pinId { pin with isDirty := true } = s.pager.pinId pin from
        hpins pin (List.mem_cons_self ..)]

/-- The page of a handle is changed, in the pool as in the flat array. -/
theorem Sound.store (h : s.Sound) {handle : Nat} {data : PageData}
    (hstep : s.Step (.store handle data) r s') :
    s'.Sound ∧ s.Outcome (.store handle data) r s' := by
  rw [Step, call] at hstep
  obtain ⟨pin, hpin, heq⟩ := Option.bind_eq_some_iff.mp hstep
  split at heq
  swap
  · cases heq
  rename_i hdirty
  cases heq
  have hmem := List.mem_of_getElem? hpin
  obtain ⟨hinv, habs, hsame, hpins⟩ :=
    h.inv.store hmem (h.inv.pool.pinDirty pin hmem hdirty) data
  refine ⟨h.of_sameStore hinv hsame fun hstatus => hstatus, .answered ?_⟩
  rw [FlatSession.call, abs_handle hpin, Option.bind_some, if_pos hdirty,
    show s.abs.flat = s.pager.abs from rfl, ← habs]
  exact congrArg (fun handles => some (Except.ok none, (⟨_, handles⟩ : FlatSession)))
    (handles_of_samePins hpins).symm

/-- A handle goes; the page stays. -/
theorem Sound.release (h : s.Sound) {handle : Nat} (hstep : s.Step (.release handle) r s') :
    s'.Sound ∧ s.Outcome (.release handle) r s' := by
  rw [Step, call] at hstep
  obtain ⟨pin, hpin, heq⟩ := Option.map_eq_some_iff.mp hstep
  cases heq
  obtain ⟨hinv, hread⟩ := (h.inv.perm (getElem?_perm hpin)).release
  refine ⟨h.of_sameStore hinv hread.store fun hstatus => hstatus, .answered ?_⟩
  rw [FlatSession.call, abs_handle hpin, Option.map_some, show s.abs.flat = s.pager.abs from rfl,
    ← hread.abs]
  simp only [abs, List.eraseIdx_map]
  exact congrArg (fun handles => some (Except.ok none, (⟨_, handles⟩ : FlatSession)))
    (handles_of_samePins hread.pins).symm

/-- The flat array knows the pages that have handles, -/
theorem pinned_abs (s : Session) : s.abs.pinned = s.pager.pinned s.handles := by
  rw [FlatSession.pinned, abs, List.map_map]
  rfl

/-- and how many. -/
theorem handlesOf_abs (s : Session) (pageId : PageId) :
    s.abs.handlesOf pageId = s.handlesOf pageId := by
  rw [FlatSession.handlesOf, pinned_abs, handlesOf]

/-- The log of a session, as far as the outcome of the last commit is known. -/
theorem Sound.exists_log (h : s.Sound) : ∃ log, s.pager.transactionState.status ≠ .unresolved →
    s.pager.walManager.Logs log ∧ Recovers s.pager.diskManager log s.pager.abs.committed := by
  by_cases hun : s.pager.transactionState.status = .unresolved
  · exact ⟨[], fun hne => absurd hun hne⟩
  · obtain ⟨log, hlog⟩ := h.logged hun
    exact ⟨log, fun _ => hlog⟩

/-- A commit makes the active pages the committed ones, or leaves all as it was, or does not
know which. -/
theorem Sound.commitTransaction (h : s.Sound) {order : IterationOrder PageId}
    (hstep : s.Step (.commitTransaction order) r s') :
    s'.Sound ∧ s.Outcome (.commitTransaction order) r s' := by
  obtain ⟨log, hlog⟩ := h.exists_log
  have hlogs (hactive : s.pager.transactionState.status = .active) :=
    (hlog (by rw [hactive]; decide)).1
  obtain ⟨hinv, hpins, hdisk, hwal, hcommit⟩ := Pager.commitTransaction_yields order h.inv hlogs
  rcases hrun : (Pager.commitTransaction order).run s.pager with ⟨e | u, pager⟩
  · rw [hrun] at hinv hpins hdisk hwal hcommit
    have hs : s.perform (Pager.commitTransaction order) = (.error e, ⟨pager, s.handles⟩) := by
      rw [Session.perform, hrun]
      rfl
    rw [Step, call, hs] at hstep
    cases hstep
    obtain ⟨hsame, habs, hflat⟩ | ⟨hfaults, habs, -⟩ := hcommit
    · have hs' : (⟨pager, s.handles⟩ : Session).abs = s.abs := by
        rw [abs, abs, habs, handles_of_samePins hpins]
      refine ⟨h.of_sameStore hinv hsame fun hstatus => ?_, .answered ?_⟩
      · have hsame : pager.transactionState.status = s.pager.transactionState.status :=
          congrArg FlatPager.status habs
        rwa [← hsame]
      · rw [hs', FlatSession.call, FlatSession.perform, pinned_abs,
          show s.abs.flat = s.pager.abs from rfl, hflat]
        rfl
    · have hun : pager.transactionState.status = .unresolved := congrArg FlatPager.status habs
      have hheader : pager.committedHeader = s.pager.committedHeader :=
        congrArg (fun flat : FlatPager => flat.committed.header) habs
      refine ⟨⟨hinv, hdisk.handle.atomicWrites h.atomic, ?_, fun hne => absurd hun hne⟩,
        .unresolved order e rfl rfl hfaults ?_⟩
      · rw [hwal.databaseId, h.databaseId, hheader]
      · rw [abs, habs, handles_of_samePins hpins]
        rfl
  · rw [hrun] at hinv hpins hdisk hwal hcommit
    have hs : s.perform (Pager.commitTransaction order) = (.ok none, ⟨pager, s.handles⟩) := by
      rw [Session.perform, hrun]
      rfl
    rw [Step, call, hs] at hstep
    cases hstep
    obtain ⟨hflat, hactive, habs, t, ht, hlogs'⟩ := hcommit
    have hheader : pager.committedHeader = s.pager.dbHeader :=
      congrArg (fun flat : FlatPager => flat.committed.header) habs
    have hcommitted : pager.abs.committed = s.pager.abs.active := by
      rw [habs]
      rfl
    obtain ⟨-, hrecovers⟩ := hlog (by rw [hactive]; decide)
    refine ⟨⟨hinv, hdisk.handle.atomicWrites h.atomic, ?_, fun _ => ⟨_, hlogs', ?_⟩⟩,
      .answered ?_⟩
    · rw [hwal.databaseId, h.databaseId, hheader]
      exact h.inv.transaction.databaseId.symm
    · rw [hcommitted]
      exact (hrecovers.commit h.inv ht).of_sameBytes hdisk
    · rw [FlatSession.call, FlatSession.perform, pinned_abs,
        show s.abs.flat = s.pager.abs from rfl, hflat]
      exact congrArg (fun handles => some (Except.ok none, (⟨_, handles⟩ : FlatSession)))
        (handles_of_samePins hpins).symm

/-- A checkpoint changes neither the active nor the committed pages. -/
theorem Sound.checkpoint (h : s.Sound) {order : IterationOrder PageId}
    (hstep : s.Step (.checkpoint order) r s') :
    s'.Sound ∧ s.Outcome (.checkpoint order) r s' := by
  have hflatCheckpoint (hfits : ¬s.abs.TooLarge) :
      s.abs.call (.checkpoint order) = some (s.abs.perform FlatPager.checkpoint) := if_neg hfits
  by_cases hun : s.pager.transactionState.status = .unresolved
  · obtain ⟨e, hrun, hflat⟩ := Pager.checkpoint_unresolved order hun
    have hs : s.perform (Pager.checkpoint order) = (.error e, s) := by
      rw [Session.perform, hrun]
      rfl
    rw [Step, call, hs] at hstep
    cases hstep
    refine ⟨h, ?_⟩
    by_cases hlarge : s.abs.TooLarge
    · exact .failed e rfl rfl (.tooLarge order e hlarge)
    · refine .answered ?_
      rw [hflatCheckpoint hlarge, FlatSession.perform, show s.abs.flat = s.pager.abs from rfl,
        hflat]
      rfl
  obtain ⟨log, hlogs, hrecovers⟩ := h.logged hun
  have hcheckpoint := Pager.checkpoint_yields order h.inv hun hlogs hrecovers h.atomic
  unfold Proc.Yields at hcheckpoint
  rcases hrun : (Pager.checkpoint order).run s.pager with ⟨r, pager⟩
  rw [hrun] at hcheckpoint
  have hs : s.perform (Pager.checkpoint order) = (answer r, ⟨pager, s.handles⟩) := by
    rw [Session.perform, hrun]
  rw [Step, call, hs] at hstep
  cases hstep
  obtain ⟨log', hdone⟩ : ∃ log', Pager.Checkpointed s.pager s.handles log log' pager := by
    obtain ⟨-, hdone, -⟩ | ⟨-, -, hdone⟩ := hcheckpoint
    · exact ⟨[], hdone⟩
    · exact hdone
  have habs : (⟨pager, s.handles⟩ : Session).abs = s.abs := by
    rw [abs, abs, hdone.abs, handles_of_samePins hdone.pins]
  have hheader : pager.committedHeader = s.pager.committedHeader :=
    congrArg (fun flat : FlatPager => flat.committed.header) hdone.abs
  refine ⟨⟨hdone.inv, hdone.disk.atomicWrites h.atomic, ?_, fun _ => ⟨log', hdone.logs, ?_⟩⟩, ?_⟩
  · rw [hdone.wal.databaseId, h.databaseId, hheader]
  · show Recovers pager.diskManager log' pager.abs.committed
    rw [hdone.abs]
    exact hdone.recovers
  · obtain ⟨hr, -, hempty⟩ | ⟨⟨e, he⟩, hwhy, -⟩ := hcheckpoint
    · obtain rfl : r = .ok () := hr
      have hfits := hdone.inv.fits hempty
      rw [hheader] at hfits
      have hun' : ¬s.abs.flat.status = .unresolved := hun
      refine .answered ?_
      rw [habs, hflatCheckpoint (Nat.not_lt_of_le hfits), FlatSession.perform,
        FlatPager.checkpoint, Proc.get_bind_run, Proc.failIf_run_of_not s.abs.flat hun']
    · obtain rfl : r = .error e := he
      refine .failed e rfl habs ?_
      obtain hdisk | hwal | hlarge := hwhy
      · exact .fault _ _ fun hno => hdisk hno.1
      · exact .fault _ _ fun hno => hwal hno.2
      · exact .tooLarge order e hlarge

/-- No write stops half way. -/
theorem isAtomic {faults : List (Option Fault)} (h : faultsAreAtomic faults = true) (n : Nat)
    (status : Status) : some ⟨.torn n, status⟩ ∉ faults := fun hmem => by
  have := List.all_eq_true.mp h _ hmem
  cases this

theorem Sound.setDiskFaults (h : s.Sound) {faults : List (Option Fault)}
    (hstep : s.Step (.setDiskFaults faults) r s') :
    s'.Sound ∧ s.Outcome (.setDiskFaults faults) r s' := by
  rw [Step, call] at hstep
  split at hstep
  swap
  · cases hstep
  rename_i hatomic
  cases hstep
  obtain ⟨⟨hopen, hfile, htransaction, hpool⟩, -, hid, hlogged⟩ := h
  refine ⟨⟨⟨hopen, ⟨⟨hfile.holds.isOpen, hfile.holds.length, hfile.holds.pos, hfile.holds.size⟩,
      hfile.filePages_le, hfile.stored, hfile.recovered⟩,
    ⟨htransaction.dbHeader, htransaction.committedHeader, htransaction.databaseId,
      htransaction.pageCount, htransaction.inactive, htransaction.dirtyNodup,
      htransaction.newNodup, htransaction.dirty_iff, htransaction.new_iff, htransaction.original,
      htransaction.headerClean⟩,
    ⟨hpool.inv, hpool.cached, hpool.held, hpool.frameDirty, hpool.pinDirty⟩⟩, isAtomic hatomic,
    hid, fun husable => ?_⟩, .answered rfl⟩
  obtain ⟨log, hlogs, hrecovers⟩ := hlogged husable
  obtain ⟨header, hstored⟩ := hrecovers.stored
  exact ⟨log, hlogs, ⟨hrecovers.wellFormed, ⟨hrecovers.holds.isOpen, hrecovers.holds.length,
    hrecovers.holds.pos, hrecovers.holds.size⟩, ⟨header, hstored⟩, hrecovers.pages_le,
    hrecovers.header, hrecovers.page⟩⟩

theorem Sound.setWalFaults (h : s.Sound) {faults : List (Option Fault)}
    (hstep : s.Step (.setWalFaults faults) r s') :
    s'.Sound ∧ s.Outcome (.setWalFaults faults) r s' := by
  cases hstep
  obtain ⟨⟨hopen, hfile, htransaction, hpool⟩, hatomic, hid, hlogged⟩ := h
  refine ⟨⟨⟨hopen, ⟨hfile.holds, hfile.filePages_le, hfile.stored, hfile.recovered⟩,
    ⟨htransaction.dbHeader, htransaction.committedHeader, htransaction.databaseId,
      htransaction.pageCount, htransaction.inactive, htransaction.dirtyNodup,
      htransaction.newNodup, htransaction.dirty_iff, htransaction.new_iff, htransaction.original,
      htransaction.headerClean⟩,
    ⟨hpool.inv, hpool.cached, hpool.held, hpool.frameDirty, hpool.pinDirty⟩⟩, hatomic,
    hid, fun husable => ?_⟩, .answered rfl⟩
  obtain ⟨log, hlogs, hrecovers⟩ := hlogged husable
  exact ⟨log, ⟨hlogs.isOpen, hlogs.bytes, hlogs.appendOffset⟩, hrecovers⟩

/-- What a session does, whatever its files do. -/
theorem Sound.step (h : s.Sound) (hstep : s.Step c r s') : s'.Sound ∧ s.Outcome c r s' := by
  cases c with
  | beginTransaction =>
    refine (h.perform FlatPager.stuck_beginTransaction ?_ hstep).imp_right fun heq =>
      .answered (congrArg some heq)
    exact (Pager.beginTransaction_yields h.inv).mono
      fun _ _ ⟨hsame, hpins, hinv, hflat, _⟩ => ⟨hsame, hpins, hinv, hflat⟩
  | getPage pageId => exact h.getPage pageId hstep
  | newPage => exact h.newPage hstep
  | read handle => exact h.read hstep
  | mutablePage handle => exact h.mutablePage hstep
  | store handle data => exact h.store hstep
  | release handle => exact h.release hstep
  | setSystemRoots tables columns indexes indexColumns =>
    rw [Step, call] at hstep
    split at hstep
    swap
    · cases hstep
    rename_i hroots
    exact (h.perform (FlatPager.stuck_setSystemRoots tables columns indexes indexColumns)
      (Pager.setSystemRoots_yields h.inv hroots) hstep).imp_right fun heq =>
        .answered (congrArg some heq)
  | commitTransaction order => exact h.commitTransaction hstep
  | rollbackTransaction order =>
    refine (h.perform (FlatPager.stuck_rollbackTransaction s.abs.pinned) ?_ hstep).imp_right
      fun heq => .answered (congrArg some heq)
    rw [pinned_abs]
    exact (Pager.rollbackTransaction_yields order h.inv).mono
      fun _ _ ⟨hsame, hpins, hinv, hflat, _⟩ => ⟨hsame, hpins, hinv, hflat⟩
  | markTransactionFailed =>
    exact (h.perform FlatPager.stuck_markTransactionFailed
      (Pager.markTransactionFailed_yields h.inv) hstep).imp_right fun heq =>
        .answered (congrArg some heq)
  | checkpoint order => exact h.checkpoint hstep
  | setDiskFaults faults => exact h.setDiskFaults hstep
  | setWalFaults faults => exact h.setWalFaults hstep

end Step

end Session

end DanDB.Storage
