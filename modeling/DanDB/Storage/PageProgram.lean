import DanDB.Lib.Program
import DanDB.Storage.SessionRuns

/-!
# Programs on pages

A program that works on the pages of a database.  It makes the calls of a
session, and its handles live in scopes: `withPage` and its siblings hold a handle
for the time of a body, at the head of the list of handles.
-/

namespace DanDB.Storage

open DanDB.Core BufferPool

/-- A call that leaves the file system alone. -/
abbrev PageCall := { c : Call // c.Quiet }

abbrev PageProgram := Program Status PageCall Reply

namespace PageProgram

variable {α β : Type}

/-! ## Calls -/

/-- A call whose answer shows a page. -/
def page (c : PageCall) : PageProgram Page :=
  .call c fun
    | .ok (some page) => .done (.ok page)
    | .ok none => .diverge
    | .error status => .done (.error status)

/-- A call whose answer shows nothing. -/
def perform (c : PageCall) : PageProgram Unit := .call c fun r => .done (r.map fun _ => ())

def getPage (pageId : PageId) : PageProgram Page := page ⟨.getPage pageId, trivial⟩

def newPage : PageProgram Page := page ⟨.newPage, trivial⟩

def read (handle : Nat) : PageProgram Page := page ⟨.read handle, trivial⟩

def mutablePage (handle : Nat) : PageProgram Unit := perform ⟨.mutablePage handle, trivial⟩

def store (handle : Nat) (data : PageData) : PageProgram Unit :=
  perform ⟨.store handle data, trivial⟩

def release (handle : Nat) : PageProgram Unit := perform ⟨.release handle, trivial⟩

/-! ## Scopes -/

/-- The body runs while the handle is in scope. -/
def withHandle (acquire : PageProgram Page) (body : Page → PageProgram α) : PageProgram α := do
  let page ← acquire
  let result ← (body page).attempt
  release 0
  .done result

/-- `pager_->get_page`, for a page that is only read. -/
def withPage (pageId : PageId) (body : PageData → PageProgram α) : PageProgram α :=
  withHandle (getPage pageId) fun page => body page.data

/-- `pager_->get_page` and `mutable_page`. -/
def withMutablePage (pageId : PageId) (body : PageData → PageProgram α) : PageProgram α :=
  withHandle (getPage pageId) fun page => do
    mutablePage 0
    body page.data

/-- `pager_->new_page` and `mutable_page`. -/
def withNewPage (body : PageId → PageProgram α) : PageProgram α :=
  withHandle newPage fun page => do
    mutablePage 0
    body page.id

/-- A change of the page of a handle, which may fail before it changes anything. -/
def edit (handle : Nat) (change : PageData → Result PageData) : PageProgram Unit := do
  let page ← read handle
  let data ← .done (change page.data)
  store handle data

end PageProgram

/-! ## The service -/

namespace FlatSession

/-- The flat array has an answer to the call: page ids are not used up, the roots
of the system tables are pages, and no page gets too many handles. -/
def Allows (s : FlatSession) : Call → Prop
  | .getPage pageId => s.handlesOf pageId < Session.maxHandles
  | .mutablePage handle => ∀ pin ∈ s.handles[handle]?, s.handlesOf pin.1 < maxPins
  | .newPage => s.flat.active.header.pageCount ≠ invalidPageId
  | .setSystemRoots tables columns indexes indexColumns =>
    (s.flat.active.header.withRoots tables columns indexes indexColumns).Valid
  | _ => True

/-- Answers that do not do what was asked for lack of room: in the pool, among
the page ids or in the file. -/
inductive Refuses (s : FlatSession) : Call → Reply → Prop
  | getPage (pageId : PageId) (h : s.handlesOf pageId < Session.maxHandles) :
    Refuses s (.getPage pageId) (.error BufferPoolManager.exhaustedStatus)
  | newPage : Refuses s .newPage (.error BufferPoolManager.exhaustedStatus)
  | pageIds (status : Status) (h : s.flat.active.header.pageCount = invalidPageId) :
    Refuses s .newPage (.error status)
  | tooLarge (order : IterationOrder PageId) (status : Status) (h : s.TooLarge) :
    Refuses s (.checkpoint order) (.error status)

/-- The flat array of pages on a disk that does not fail. -/
def service : Service FlatSession PageCall Reply where
  answers s c r s' := s.Allows c ∧ s.call c = some (r, s')
  refuses s c r := s.Refuses c r

/-- There is no page behind the last page id. -/
theorem newPage_pageIds {flat : FlatPager} (h : flat.active.header.pageCount = invalidPageId) :
    ∃ status, FlatPager.newPage.run flat = (.error status, flat) := by
  have hnew : FlatPager.newPage.Yields flat fun r flat' =>
      (∃ status, r = .error status) ∧ flat' = flat := by
    refine (FlatPager.requireActive_same flat _).bind (fun _ flat' hmid => ?_)
      fun e _ hmid => ⟨⟨e, rfl⟩, hmid⟩
    subst hmid
    exact Proc.yields_get_bind (Proc.yields_failIf_bind (fun _ => ⟨⟨_, rfl⟩, rfl⟩)
      fun hne => absurd h hne)
  unfold Proc.Yields at hnew
  rcases hrun : FlatPager.newPage.run flat with ⟨r, flat'⟩
  rw [hrun] at hnew
  obtain ⟨⟨status, rfl⟩, rfl⟩ := hnew
  exact ⟨status, rfl⟩

end FlatSession

namespace Session

/-- A session on files that answer every call, as a flat array of pages. -/
def Models (t : Session) (s : FlatSession) : Prop := t.Sound ∧ t.NoFaults ∧ s = t.abs

/-- A program on a session. -/
def machine (t : Session) (c : PageCall) : Option (Reply × Session) := t.call c

/-- A program on a session, however many handles it makes. -/
def responder (t : Session) (c : PageCall) : Option (Reply × Session) := t.respond c

variable {t t' : Session} {s : FlatSession} {r : Reply}

theorem abs_handle_none {handle : Nat} (h : t.handles[handle]? = none) :
    t.abs.handles[handle]? = none := by
  rw [abs, List.getElem?_map, h, Option.map_none]

/-- A call that the flat array has an answer to can be made. -/
theorem exists_call {c : Call} {s : FlatSession} (hquiet : c.Quiet) (hallows : t.abs.Allows c)
    (h : t.abs.call c = some (r, s)) : ∃ r t', t.call c = some (r, t') := by
  cases c with
  | read handle =>
    cases hpin : t.handles[handle]? with
    | none => rw [FlatSession.call, abs_handle_none hpin] at h; cases h
    | some pin => exact ⟨_, _, by rw [call, hpin]; rfl⟩
  | getPage pageId => exact ⟨_, _, if_pos (handlesOf_abs t pageId ▸ hallows)⟩
  | mutablePage handle =>
    cases hpin : t.handles[handle]? with
    | none => rw [FlatSession.call, abs_handle_none hpin] at h; cases h
    | some pin =>
      have hroom := hallows _ (abs_handle hpin)
      rw [handlesOf_abs] at hroom
      exact ⟨_, _, by rw [call, hpin, Option.bind_some, if_pos hroom]⟩
  | release handle =>
    cases hpin : t.handles[handle]? with
    | none => rw [FlatSession.call, abs_handle_none hpin] at h; cases h
    | some pin => exact ⟨_, _, by rw [call, hpin]; rfl⟩
  | store handle data =>
    cases hpin : t.handles[handle]? with
    | none => rw [FlatSession.call, abs_handle_none hpin] at h; cases h
    | some pin =>
      rw [FlatSession.call, abs_handle hpin, Option.bind_some] at h
      cases hdirty : pin.isDirty with
      | false => rw [hdirty] at h; cases h
      | true => exact ⟨_, _, by rw [call, hpin, Option.bind_some, if_pos hdirty]⟩
  | setSystemRoots tables columns indexes indexColumns => exact ⟨_, _, if_pos hallows⟩
  | setDiskFaults faults => exact hquiet.elim
  | setWalFaults faults => exact ⟨_, _, rfl⟩
  | _ => exact ⟨_, _, rfl⟩

/-- The session has no room for the call and says so: every frame of the pool is taken, the
page ids are used up, or there are more pages than a file has room for. -/
inductive TurnsDown (t : Session) : Call → Reply → Prop
  | getPage (pageId : PageId) (h : t.pager.bpm.Exhausted) :
    TurnsDown t (.getPage pageId) (.error BufferPoolManager.exhaustedStatus)
  | newPage (h : t.pager.bpm.Exhausted) :
    TurnsDown t .newPage (.error BufferPoolManager.exhaustedStatus)
  | pageIds (status : Status) (h : t.abs.flat.active.header.pageCount = invalidPageId) :
    TurnsDown t .newPage (.error status)
  | tooLarge (order : IterationOrder PageId) (status : Status) (h : t.abs.TooLarge) :
    TurnsDown t (.checkpoint order) (.error status)

/-- A call that finds no room is refused, and says why. -/
theorem refuses_of_not_allows {c : Call} (hallows : ¬t.abs.Allows c)
    (hcall : t.call c = some (r, t')) (hanswer : t.abs.call c = some (r, s)) :
    t.abs.Refuses c r ∧ t.TurnsDown c r ∧ s = t.abs := by
  cases c with
  | getPage pageId =>
    exact absurd ((handlesOf_abs t pageId).trans_lt (call_getPage hcall).1) hallows
  | mutablePage handle =>
    obtain ⟨pin, hpin, hroom, -⟩ := call_mutablePage hcall
    refine absurd (fun pin' hpin' => ?_) hallows
    obtain rfl := Option.some.inj ((abs_handle hpin).symm.trans hpin')
    exact (handlesOf_abs t _).trans_lt hroom
  | newPage =>
    have hids : t.abs.flat.active.header.pageCount = invalidPageId := not_not.mp hallows
    obtain ⟨status, hnew⟩ := FlatSession.newPage_pageIds hids
    rw [FlatSession.call, hnew] at hanswer
    cases hanswer
    exact ⟨.pageIds status hids, .pageIds status hids, rfl⟩
  | setSystemRoots tables columns indexes indexColumns =>
    have hroots :
        ¬(t.pager.dbHeader.withRoots tables columns indexes indexColumns).Valid := hallows
    rw [call, if_neg hroots] at hcall
    cases hcall
  | _ => exact absurd trivial hallows

/-- A session implements the flat array of pages. -/
theorem implements : FlatSession.service.Implements machine Models
    fun t c r => t.TurnsDown c.1 r := by
  rintro t _ ⟨c, hquiet⟩ ⟨hsound, hno, rfl⟩ henabled
  obtain ⟨r, t', hcall⟩ : ∃ r t', t.call c = some (r, t') := by
    obtain ⟨r, s', hallows, hanswer⟩ | ⟨r, hrefuse⟩ := henabled
    · exact exists_call hquiet hallows hanswer
    · cases hrefuse with
      | getPage pageId h => exact ⟨_, _, if_pos (handlesOf_abs t pageId ▸ h)⟩
      | _ => exact ⟨_, _, rfl⟩
  have hmodels : t'.Sound ∧ t'.NoFaults :=
    ⟨(hsound.step hcall).1, hsound.noFaults hno hquiet hcall⟩
  refine ⟨r, t', hcall, ?_⟩
  obtain ⟨-, hanswer | ⟨status, rfl, habs, hwhy⟩ | ⟨_, _, -, -, hfaults, -⟩⟩ := hsound.step hcall
  · by_cases hallows : t.abs.Allows c
    · exact .inl ⟨t'.abs, ⟨hallows, hanswer⟩, hmodels.1, hmodels.2, rfl⟩
    · obtain ⟨hrefuse, hturns, habs⟩ := refuses_of_not_allows hallows hcall hanswer
      exact .inr ⟨hrefuse, hturns, hmodels.1, hmodels.2, habs.symm⟩
  · have hrel : Models t' t.abs := ⟨hmodels.1, hmodels.2, habs.symm⟩
    cases hwhy with
    | getPage pageId hfull =>
      have hroom := (handlesOf_abs t pageId).trans_lt (call_getPage hcall).1
      exact .inr ⟨.getPage pageId hroom, .getPage pageId hfull, hrel⟩
    | newPage hfull => exact .inr ⟨.newPage, .newPage hfull, hrel⟩
    | fault _ _ hfault => exact absurd hno hfault
    | tooLarge order _ hlarge =>
      exact .inr ⟨.tooLarge order status hlarge, .tooLarge order status hlarge, hrel⟩
  · exact absurd hno.2 hfaults

end Session

/-! ## Programs in a transaction -/

/-- What a program on pages leaves as it is: the committed pages, the state of
the transaction and the handles in scope. -/
structure FlatSession.Keeps (s s' : FlatSession) : Prop where
  committed : s'.flat.committed = s.flat.committed
  status : s'.flat.status = s.flat.status
  handles : s'.handles = s.handles

theorem FlatSession.Keeps.refl (s : FlatSession) : s.Keeps s := ⟨rfl, rfl, rfl⟩

theorem FlatSession.Keeps.trans {s s' s'' : FlatSession} (h : s.Keeps s') (h' : s'.Keeps s'') :
    s.Keeps s'' :=
  ⟨h'.committed.trans h.committed, h'.status.trans h.status, h'.handles.trans h.handles⟩

namespace PageArray

/-- Overwrite a page. -/
def write (array : PageArray) (pageId : PageId) (data : PageData) : PageArray :=
  { array with page := Function.update array.page pageId (some data) }

/-- One more page, all zeros. -/
def grow (array : PageArray) : PageArray where
  header := { array.header with pageCount := array.header.pageCount + 1 }
  page := Function.update array.page array.header.pageCount (some .zero)

end PageArray

/-- Where a program runs: the state of the transaction and the handles in scope,
with `spare` more scopes to come at most. -/
structure PageContext (spare : Nat) where
  status : TransactionStatus
  handles : List (PageId × Bool)
  few : handles.length + spare ≤ Session.maxHandles

namespace PageContext

variable {spare : Nat}

/-- One more handle in scope. -/
def pin (ctx : PageContext (spare + 1)) (pageId : PageId) (isDirty : Bool) :
    PageContext spare where
  status := ctx.status
  handles := (pageId, isDirty) :: ctx.handles
  few := by
    rw [List.length_cons, Nat.add_right_comm]
    exact ctx.few

/-- No handle in scope. -/
def top (status : TransactionStatus) : PageContext Session.maxHandles where
  status := status
  handles := []
  few := Nat.le_of_eq (Nat.zero_add _)

/-- The session is in the context and its pages are as given. -/
structure At (ctx : PageContext spare) (array : PageArray) (s : FlatSession) : Prop where
  active : s.flat.active = array
  status : s.flat.status = ctx.status
  handles : s.handles = ctx.handles

/-- A program has room for as many handles as it may still take. -/
theorem At.handlesOf_le {ctx : PageContext spare} {array : PageArray} {s : FlatSession}
    (h : ctx.At array s) (pageId : PageId) : s.handlesOf pageId + spare ≤ Session.maxHandles := by
  have hcount : s.handlesOf pageId ≤ ctx.handles.length := by
    refine List.count_le_length.trans ?_
    rw [FlatSession.pinned, List.length_map, h.handles]
  exact (Nat.add_le_add_right hcount spare).trans ctx.few

end PageContext

namespace PageProgram

variable {α β ι : Type} {spare : Nat}

/-- Run on pages as given, the program ends with an outcome and pages as the
postcondition says, or fails because one of its calls was refused. -/
def Yields (ctx : PageContext spare) (x : PageProgram α) (array : PageArray)
    (post : Except Status α → PageArray → Prop) : Prop :=
  ∀ s, ctx.At array s → x.Ensures FlatSession.service
    (fun r s' => s.Keeps s' ∧ ∃ status, r = .error status) s
    fun r s' => s.Keeps s' ∧ post r s'.flat.active

section Rules

variable {ctx : PageContext spare} {x : PageProgram α} {array : PageArray}
  {post post' : Except Status α → PageArray → Prop}

/-- The postcondition may be weakened. -/
theorem Yields.mono (h : Yields ctx x array post)
    (himp : ∀ r array', post r array' → post' r array') : Yields ctx x array post' :=
  fun s hs => (h s hs).mono (fun _ _ hr => hr) fun _ _ hr => ⟨hr.1, himp _ _ hr.2⟩

theorem yields_done {r : Except Status α} (h : post r array) : Yields ctx (.done r) array post :=
  fun s hs => ⟨.refl s, by rw [hs.active]; exact h⟩

theorem yields_pure {a : α} (h : post (.ok a) array) : Yields ctx (pure a) array post :=
  yields_done h

/-- What holds after the first program is what the second starts from, and an
error of the first is the error of the whole. -/
theorem Yields.bind {f : α → PageProgram β} {mid : Except Status α → PageArray → Prop}
    {post : Except Status β → PageArray → Prop} (h : Yields ctx x array mid)
    (hok : ∀ a array', mid (.ok a) array' → Yields ctx (f a) array' post)
    (herror : ∀ e array', mid (.error e) array' → post (.error e) array') :
    Yields ctx (x >>= f) array post := by
  intro s hs
  refine Program.Ensures.bind ((h s hs).mono ?_ ?_)
  · rintro r s' ⟨hkeeps, status, rfl⟩
    exact ⟨hkeeps, status, rfl⟩
  · rintro (e | a) s' ⟨hkeeps, hmid⟩
    · exact ⟨hkeeps, herror e _ hmid⟩
    · have hs' : ctx.At s'.flat.active s' :=
        ⟨rfl, hkeeps.status.trans hs.status, hkeeps.handles.trans hs.handles⟩
      exact (hok a _ hmid s' hs').mono (fun r s'' hr => ⟨hkeeps.trans hr.1, hr.2⟩)
        fun r s'' hr => ⟨hkeeps.trans hr.1, hr.2⟩

/-- A check splits the proof. -/
theorem yields_failIf_bind {condition : Prop} [Decidable condition] {e : Status}
    {f : Unit → PageProgram α} (herror : condition → post (.error e) array)
    (hok : ¬condition → Yields ctx (f ()) array post) :
    Yields ctx (Program.failIf condition e >>= f) array post := by
  by_cases h : condition
  · rw [Program.failIf, if_pos h]
    exact yields_done (herror h)
  · rw [Program.failIf, if_neg h]
    exact hok h

/-- A call that is answered unless it is refused. -/
theorem ensures_call {c : PageCall} {next : Reply → PageProgram α} {s s' : FlatSession} {r : Reply}
    {refused post : Except Status α → FlatSession → Prop} (hallows : s.Allows c)
    (hcall : s.call c = some (r, s'))
    (hrefuses : ∀ r, s.Refuses c r → (next r).Ensures FlatSession.service refused s refused)
    (h : (next r).Ensures FlatSession.service refused s' post) :
    (Program.call c next).Ensures FlatSession.service refused s post := by
  refine ⟨.inl ⟨r, s', hallows, hcall⟩, ?_, hrefuses⟩
  rintro r' s'' ⟨-, hcall'⟩
  rw [hcall] at hcall'
  cases hcall'
  exact h

/-- A change of the page of a handle. -/
theorem yields_edit {handle : Nat} {pageId : PageId} {data : PageData}
    {change : PageData → Result PageData} {post : Except Status Unit → PageArray → Prop}
    (hhandle : ctx.handles[handle]? = some (pageId, true)) (hpage : array.page pageId = some data)
    (hok : ∀ data', change data = .ok data' → post (.ok ()) (array.write pageId data'))
    (herror : ∀ status, change data = .error status → post (.error status) array) :
    Yields ctx (edit handle change) array post := by
  intro s hs
  have hread : s.call (.read handle) = some (.ok (some ⟨pageId, data⟩), s) := by
    rw [FlatSession.call, hs.handles, hhandle, Option.map_some, FlatSession.page, hs.active, hpage,
      Option.getD_some]
  refine ensures_call trivial hread (by rintro r ⟨⟩) ?_
  show ((.done (change data) : PageProgram PageData) >>= fun data => store handle data).Ensures
    FlatSession.service _ s _
  cases hchange : change data with
  | error status =>
    refine ⟨.refl s, ?_⟩
    rw [hs.active]
    exact herror status hchange
  | ok data' =>
    refine @ensures_call _ _ _ _ ⟨s.flat.store pageId data', s.handles⟩ (.ok none) _ _ trivial ?_
      (by rintro r ⟨⟩) ⟨⟨rfl, rfl, rfl⟩, ?_⟩
    · rw [FlatSession.call, hs.handles, hhandle, Option.bind_some, if_pos rfl]
    · show post (.ok ()) (s.flat.active.write pageId data')
      rw [hs.active]
      exact hok data' hchange

end Rules

section Scopes

variable {ctx : PageContext (spare + 1)} {x : PageProgram α} {array : PageArray}
  {post : Except Status α → PageArray → Prop}

/-- There is a pin to spare for the copy of a page. -/
theorem allows_mutablePage {ctx : PageContext spare} {s : FlatSession} (hs : ctx.At array s)
    (handle : Nat) : s.Allows (.mutablePage handle) := fun pin _ =>
  ((Nat.le_add_right _ spare).trans (hs.handlesOf_le pin.1)).trans_lt (by decide)

/-- The body of a scope, and the end of the scope. -/
theorem Yields.scope {pageId : PageId} {isDirty : Bool} {array' : PageArray}
    (h : Yields (ctx.pin pageId isDirty) x array' post) {s s' : FlatSession} (hs : ctx.At array s)
    (hs' : (ctx.pin pageId isDirty).At array' s') (hcommitted : s'.flat.committed = s.flat.committed) :
    (x.attempt >>= fun result => release 0 >>= fun _ => .done result).Ensures FlatSession.service
      (fun r s' => s.Keeps s' ∧ ∃ status, r = .error status) s'
      fun r s' => s.Keeps s' ∧ post r s'.flat.active := by
  have hrelease {s'' : FlatSession} (hkeeps : s'.Keeps s'') (r : Except Status α)
      {refused post : Except Status α → FlatSession → Prop}
      (h : post r ⟨s''.flat, ctx.handles⟩) :
      (release 0 >>= fun _ => (.done r : PageProgram α)).Ensures FlatSession.service refused s''
        post := by
    refine @ensures_call _ _ _ _ ⟨s''.flat, ctx.handles⟩ (.ok none) _ _ trivial ?_ nofun h
    rw [FlatSession.call, hkeeps.handles, hs'.handles]
    rfl
  have hend {s'' : FlatSession} (hkeeps : s'.Keeps s'') :
      s.Keeps ⟨s''.flat, ctx.handles⟩ :=
    ⟨hkeeps.committed.trans hcommitted, hkeeps.status.trans (hs'.status.trans hs.status.symm),
      hs.handles.symm⟩
  refine Program.Ensures.bind (Program.Ensures.attempt ((h s' hs').mono ?_ ?_))
  · rintro r s'' ⟨hkeeps, status, rfl⟩
    exact hrelease hkeeps _ ⟨hend hkeeps, status, rfl⟩
  · rintro r s'' ⟨hkeeps, hpost⟩
    exact hrelease hkeeps _ ⟨hend hkeeps, hpost⟩

/-- There is a handle to spare for the page. -/
theorem allows_getPage {s : FlatSession} (hs : ctx.At array s) (pageId : PageId) :
    s.Allows (.getPage pageId) :=
  (Nat.lt_add_of_pos_right (Nat.succ_pos spare)).trans_le (hs.handlesOf_le pageId)

/-- The body sees the page, and has one handle less to take. -/
theorem yields_withPage {pageId : PageId} {data : PageData} {body : PageData → PageProgram α}
    (hvalid : pageId ≠ invalidPageId) (hne : pageId ≠ headerPageId)
    (hpage : array.page pageId = some data) (h : Yields (ctx.pin pageId false) (body data) array post) :
    Yields ctx (withPage pageId body) array post := by
  intro s hs
  have hget : s.call (.getPage pageId) =
      some (.ok (some ⟨pageId, data⟩), ⟨s.flat, (pageId, false) :: s.handles⟩) := by
    rw [FlatSession.call, Session.flat_getPage_some hvalid hne (by rw [hs.active]; exact hpage)]
  refine ensures_call (allows_getPage hs pageId) hget ?_ ?_
  · rintro r ⟨⟩
    exact ⟨.refl s, _, rfl⟩
  · exact h.scope hs ⟨hs.active, hs.status, congrArg _ hs.handles⟩ rfl

/-- In a transaction a page is marked as changed. -/
theorem markDirty_active {flat : FlatPager} (h : flat.status = .active) {pageId : PageId}
    (hvalid : pageId ≠ invalidPageId) : (FlatPager.markDirty pageId).run flat =
      (.ok (), { flat with dirtyPageIds := flat.dirtyPageIds.insert pageId }) := by
  rw [FlatPager.markDirty, Proc.get_bind_run,
    Proc.bind_run_ok (Proc.failIf_run_of_not flat hvalid _),
    Proc.bind_run_ok (Proc.failIf_run_of_not flat (by rw [h]; decide) _),
    Proc.bind_run_ok (Proc.failIf_run_of_not flat (by rw [h]; decide) _),
    Proc.bind_run_ok (Proc.failIf_run_of_not flat (by rw [h]; decide) _), Proc.modify_run]

/-- The body of a scope whose page may be written. -/
theorem Yields.mutableScope {pageId : PageId} {isDirty : Bool} {array' : PageArray}
    (hactive : ctx.status = .active) (hvalid : pageId ≠ invalidPageId)
    (h : Yields (ctx.pin pageId true) x array' post) {s s' : FlatSession} (hs : ctx.At array s)
    (hs' : (ctx.pin pageId isDirty).At array' s')
    (hcommitted : s'.flat.committed = s.flat.committed) :
    ((mutablePage 0 >>= fun _ => x).attempt >>= fun result =>
      release 0 >>= fun _ => .done result).Ensures FlatSession.service
      (fun r s' => s.Keeps s' ∧ ∃ status, r = .error status) s'
      fun r s' => s.Keeps s' ∧ post r s'.flat.active := by
  have hmark := markDirty_active (hs'.status.trans hactive) hvalid
  refine @ensures_call _ _ _ _ ⟨{ s'.flat with
    dirtyPageIds := s'.flat.dirtyPageIds.insert pageId }, (pageId, true) :: ctx.handles⟩ (.ok none)
    _ _ (allows_mutablePage hs' 0) ?_ nofun ?_
  · rw [FlatSession.call, hs'.handles,
      show (ctx.pin pageId isDirty).handles[0]? = some (pageId, isDirty) from rfl, Option.map_some,
      hmark]
    rfl
  · exact h.scope hs ⟨hs'.active, hs'.status, rfl⟩ hcommitted

/-- The body may change the page. -/
theorem yields_withMutablePage {pageId : PageId} {data : PageData}
    {body : PageData → PageProgram α} (hactive : ctx.status = .active)
    (hvalid : pageId ≠ invalidPageId) (hne : pageId ≠ headerPageId)
    (hpage : array.page pageId = some data) (h : Yields (ctx.pin pageId true) (body data) array post) :
    Yields ctx (withMutablePage pageId body) array post := by
  intro s hs
  have hget : s.call (.getPage pageId) =
      some (.ok (some ⟨pageId, data⟩), ⟨s.flat, (pageId, false) :: s.handles⟩) := by
    rw [FlatSession.call, Session.flat_getPage_some hvalid hne (by rw [hs.active]; exact hpage)]
  refine ensures_call (allows_getPage hs pageId) hget ?_ ?_
  · rintro r ⟨⟩
    exact ⟨.refl s, _, rfl⟩
  · exact h.mutableScope hactive hvalid hs ⟨hs.active, hs.status, congrArg _ hs.handles⟩ rfl

/-- In a transaction a page is added. -/
theorem newPage_active {flat : FlatPager} (hactive : flat.status = .active)
    (hids : flat.active.header.pageCount ≠ invalidPageId) : FlatPager.newPage.run flat =
      (.ok flat.active.header.pageCount, { flat with
        active := flat.active.grow
        dirtyPageIds :=
          (flat.dirtyPageIds.insert headerPageId).insert flat.active.header.pageCount }) := by
  rw [FlatPager.newPage, Proc.bind_run_ok (FlatPager.requireActive_active hactive _),
    Proc.get_bind_run, Proc.bind_run_ok (Proc.failIf_run_of_not _ hids _), Proc.modify_bind_run,
    Proc.pure_run, PageArray.grow]

/-- The body may change the new page. -/
theorem yields_withNewPage {body : PageId → PageProgram α} (hactive : ctx.status = .active)
    (h : array.header.pageCount ≠ invalidPageId →
      Yields (ctx.pin array.header.pageCount true) (body array.header.pageCount) array.grow post) :
    Yields ctx (withNewPage body) array post := by
  intro s hs
  refine ⟨.inr ⟨_, .newPage⟩, ?_, ?_⟩
  · rintro r s' ⟨hallows, hcall⟩
    have hids : array.header.pageCount ≠ invalidPageId := by
      rw [← hs.active]
      exact hallows
    have hnew := newPage_active (hs.status.trans hactive) (by rw [hs.active]; exact hids)
    rw [hs.active] at hnew
    rw [FlatSession.call, hnew] at hcall
    cases hcall
    exact (h hids).mutableScope hactive hids hs ⟨rfl, hs.status, congrArg _ hs.handles⟩ rfl
  · intro r hrefuses
    cases hrefuses <;> exact ⟨.refl s, _, rfl⟩

end Scopes

end PageProgram

end DanDB.Storage
