import DanDB.Storage.PageProgram

/-!
# Programs that only read

A program that gets pages and lets go of them leaves the pages as they are.
Whether it gets a page depends on the pool, the log and the files, so any call for
one may fail.  `Ends` says that a program ends whatever they do.
-/

namespace DanDB.Storage

open DanDB.Core BufferPool

/-- The answers to calls that only read, and whether the program holds a handle
afterwards.  It holds one at most. -/
inductive Reads (array : PageArray) : Bool → Call → Reply → Bool → Prop
  | getPage (pageId : PageId) (data : PageData) (h : array.page pageId = some data) :
    Reads array false (.getPage pageId) (.ok (some ⟨pageId, data⟩)) true
  | failed (pageId : PageId) (status : Status) :
    Reads array false (.getPage pageId) (.error status) false
  | release : Reads array true (.release 0) (.ok none) false

/-- What a program that only reads is told about the pages. -/
def PageArray.reads (array : PageArray) : Service Bool PageCall Reply where
  answers held c r held' := Reads array held c.1 r held'
  refuses _ _ _ := False

namespace Session

variable {t t' : Session} {r : Reply} {array : PageArray} {handles : List (PageId × Bool)}
  {held : Bool}

/-- No page has more handles than its frame can count. -/
def Few (t : Session) : Prop := ∀ pageId, t.handlesOf pageId ≤ maxHandles

/-- A session with the pages as given, and with one handle more than these if the
program holds one. -/
structure Shows (array : PageArray) (handles : List (PageId × Bool)) (t : Session)
    (held : Bool) : Prop where
  sound : t.Sound
  active : t.abs.flat.active = array
  few : ∀ pageId, (handles.map Prod.fst).count pageId ≤ maxHandles
  handles : ∃ scope, t.abs.handles = scope ++ handles ∧ scope.length = held.toNat

theorem length_abs_handles (t : Session) : t.abs.handles.length = t.handles.length :=
  List.length_map ..

theorem flat_getPage_reads {s s' : FlatSession} {pageId : PageId}
    (h : s.call (.getPage pageId) = some (r, s')) :
    ∃ scope held, Reads s.flat.active false (.getPage pageId) r held ∧
      s'.handles = scope ++ s.handles ∧ scope.length = held.toNat ∧
      s'.flat.active = s.flat.active := by
  rw [FlatSession.call, FlatPager.getPage, Proc.get_bind_run] at h
  by_cases hinvalid : pageId = invalidPageId ∨ pageId = headerPageId
  · rw [Proc.bind_run_error (Proc.failIf_run_of s.flat hinvalid _)] at h
    cases h
    exact ⟨[], false, .failed pageId _, rfl, rfl, rfl⟩
  · rw [Proc.bind_run_ok (Proc.failIf_run_of_not s.flat hinvalid _)] at h
    cases hpage : s.flat.active.page pageId with
    | none =>
      rw [hpage] at h
      cases h
      exact ⟨[], false, .failed pageId _, rfl, rfl, rfl⟩
    | some data =>
      rw [hpage] at h
      cases h
      exact ⟨[(pageId, false)], true, .getPage pageId data hpage, rfl, rfl, rfl⟩

theorem Shows.getPage (h : Shows array handles t false) {pageId : PageId}
    (hstep : t.acquire (Pager.getPage pageId) = (r, t')) :
    ∃ held, Reads array false (.getPage pageId) r held ∧ Shows array handles t' held := by
  obtain ⟨scope, hscope, hnil⟩ := h.handles
  obtain rfl := List.eq_nil_of_length_eq_zero hnil
  have hroom : t.handlesOf pageId < maxPins := by
    rw [← handlesOf_abs, FlatSession.handlesOf, FlatSession.pinned, hscope]
    exact (h.few pageId).trans_lt (by decide)
  obtain ⟨hsound, hanswer | ⟨status, rfl, habs, -⟩ | ⟨_, _, hc, -⟩⟩ :=
    h.sound.acquire_getPage hroom hstep
  · obtain ⟨scope, held, hreads, hhandles, hlength, hactive⟩ := flat_getPage_reads hanswer
    rw [h.active] at hreads
    rw [hscope] at hhandles
    exact ⟨held, hreads, hsound, hactive.trans h.active, h.few, scope, hhandles, hlength⟩
  · exact ⟨false, .failed pageId status, hsound, habs ▸ h.active, h.few, [], habs ▸ hscope, rfl⟩
  · cases hc

theorem Shows.release (h : Shows array handles t true) :
    ∃ t', t.call (.release 0) = some (.ok none, t') ∧ Shows array handles t' false := by
  obtain ⟨scope, hscope, hone⟩ := h.handles
  obtain ⟨handle, rfl⟩ := List.length_eq_one_iff.mp hone
  have hlt : 0 < t.handles.length := by
    rw [← length_abs_handles, hscope]
    exact Nat.succ_pos _
  have hpin := List.getElem?_eq_getElem hlt
  obtain ⟨t', hrelease⟩ : ∃ t', t.call (.release 0) = some (.ok none, t') := by
    rw [call, hpin]
    exact ⟨_, rfl⟩
  obtain ⟨hsound, hanswer | ⟨status, hr, -⟩ | ⟨_, _, hc, -⟩⟩ := h.sound.step hrelease
  · rw [FlatSession.call, hscope] at hanswer
    obtain ⟨-, hflat⟩ := Prod.mk.inj (Option.some.inj hanswer)
    exact ⟨t', hrelease, hsound, hflat ▸ h.active, h.few, [], hflat ▸ rfl, rfl⟩
  · cases hr
  · cases hc

/-- What a session answers to calls that only read, whatever its files do. -/
theorem reads_implements (array : PageArray) (handles : List (PageId × Bool)) :
    array.reads.Implements responder (Shows array handles) fun _ _ _ => False := by
  rintro t held ⟨c, hquiet⟩ h henabled
  obtain ⟨r, held', hreads⟩ | ⟨_, hrefuses⟩ := henabled
  · cases hreads with
    | release =>
      obtain ⟨t', hcall, hshows⟩ := h.release
      exact ⟨_, t', hcall, .inl ⟨_, .release, hshows⟩⟩
    | getPage pageId | failed pageId =>
      obtain ⟨held', hreads, hshows⟩ := h.getPage rfl
      exact ⟨_, _, rfl, .inl ⟨held', hreads, hshows⟩⟩
  · exact hrefuses.elim

end Session

/-! ## Programs that end -/

namespace PageProgram

variable {α β ι : Type} {array : PageArray} {held : Bool} {x : PageProgram α}
  {post post' : α → Prop}

/-- On the pages as given the program, which holds a handle or none, ends and has
let go of the handles it has made.  A value it ends with is as the postcondition
says. -/
def Ends (array : PageArray) (held : Bool) (x : PageProgram α) (post : α → Prop) : Prop :=
  x.Ensures array.reads (fun _ _ => False) held fun r held' =>
    held' = held ∧ ∀ a, r = .ok a → post a

theorem Ends.mono (h : Ends array held x post) (himp : ∀ a, post a → post' a) :
    Ends array held x post' :=
  Program.Ensures.mono h (fun _ _ hr => hr) fun _ _ hr => ⟨hr.1, fun a ha => himp a (hr.2 a ha)⟩

theorem ends_done {r : Except Status α} (h : ∀ a, r = .ok a → post a) :
    Ends array held (.done r) post := ⟨rfl, h⟩

theorem ends_pure {a : α} (h : post a) : Ends array held (pure a) post :=
  ends_done fun _ ha => Except.ok.inj ha ▸ h

theorem ends_fail (e : Status) : Ends array held (Program.fail e : PageProgram α) post :=
  ends_done nofun

theorem Ends.bind {f : α → PageProgram β} {post : β → Prop} {mid : α → Prop}
    (h : Ends array held x mid) (hf : ∀ a, mid a → Ends array held (f a) post) :
    Ends array held (x >>= f) post := by
  refine Program.Ensures.bind (Program.Ensures.mono h (fun _ _ hr => hr.elim) ?_)
  rintro (e | a) held' ⟨rfl, ha⟩
  · exact ⟨rfl, nofun⟩
  · exact hf a (ha a rfl)

theorem ends_done_bind {r : Except Status β} {f : β → PageProgram α}
    (h : ∀ b, r = .ok b → Ends array held (f b) post) :
    Ends array held (.done r >>= f) post := by
  cases r with
  | error e => exact ends_done nofun
  | ok b => exact h b rfl

theorem ends_failIf_bind {condition : Prop} [Decidable condition] {e : Status}
    {f : Unit → PageProgram α} (h : ¬condition → Ends array held (f ()) post) :
    Ends array held (Program.failIf condition e >>= f) post := by
  unfold Program.failIf
  split
  · exact ends_done nofun
  · exact h ‹_›

theorem Ends.mapError (h : Ends array held x post) (f : Status → Status) :
    Ends array held (x.mapError f) post := by
  refine Program.Ensures.bind (Program.Ensures.attempt (Program.Ensures.mono h
    (fun _ _ hr => hr) ?_))
  rintro (e | a) held' ⟨rfl, ha⟩
  · exact ⟨rfl, nofun⟩
  · exact ⟨rfl, ha⟩

/-- The page may be out of reach; otherwise the body runs on it. -/
theorem ends_withPage {pageId : PageId} {body : PageData → PageProgram α}
    (h : ∀ data, array.page pageId = some data → Ends array true (body data) post) :
    Ends array false (withPage pageId body) post := by
  refine ⟨.inl ⟨_, _, .failed pageId (.IoError "")⟩, ?_, nofun⟩
  intro r held hreads
  cases hreads with
  | failed _ status => exact ⟨rfl, nofun⟩
  | getPage _ data hpage =>
    show ((body data).attempt >>= fun result => release 0 >>= fun _ => .done result).Ensures
      array.reads _ true _
    refine Program.Ensures.bind (Program.Ensures.attempt
      (Program.Ensures.mono (h data hpage) (fun _ _ hr => hr.elim) ?_))
    rintro r _ ⟨rfl, hpost⟩
    refine ⟨.inl ⟨_, _, .release⟩, ?_, nofun⟩
    intro _ _ hreads
    cases hreads
    exact ⟨rfl, hpost⟩

/-- A look at a page that is shown and let go of. -/
theorem run_withPage {t t₁ t₂ : Session} {pageId : PageId} {data : PageData}
    {body : PageData → PageProgram α} {r : Except Status α}
    (hget : t.call (.getPage pageId) = some (.ok (some ⟨pageId, data⟩), t₁))
    (hbody : body data = .done r) (hrelease : t₁.call (.release 0) = some (.ok none, t₂)) :
    (withPage pageId body).run Session.responder t =
      some ([(⟨.getPage pageId, trivial⟩, .ok (some ⟨pageId, data⟩)),
        (⟨.release 0, trivial⟩, .ok none)], r, t₂) := by
  have hget' : Session.responder t ⟨.getPage pageId, trivial⟩ = _ := Session.respond_of_call hget
  have hrelease' : Session.responder t₁ ⟨.release 0, trivial⟩ = _ := hrelease
  have hfirst : (getPage pageId).run Session.responder t =
      some ([(⟨.getPage pageId, trivial⟩, .ok (some ⟨pageId, data⟩))], .ok ⟨pageId, data⟩, t₁) := by
    rw [getPage, page, Program.run, hget']
    rfl
  have hsecond : (release 0).run Session.responder t₁ =
      some ([(⟨.release 0, trivial⟩, .ok none)], .ok (), t₂) := by
    rw [release, perform, Program.run, hrelease']
    rfl
  rw [withPage, withHandle, Program.run_bind_ok hfirst, hbody]
  show Option.map _ (Program.run Session.responder (release 0 >>= fun _ => .done r) t₁) = _
  rw [Program.run_bind_ok hsecond]
  rfl

/-- A program that ends does so in every session that shows the pages. -/
theorem Ends.run (h : Ends array false x post) {t : Session} (ht : t.Sound) (hfew : t.Few)
    (hactive : t.abs.flat.active = array) : ∃ trace r t',
      x.run Session.responder t = some (trace, r, t') ∧ t'.Sound ∧ t'.abs.flat.active = array ∧
        t'.abs.handles = t.abs.handles ∧ ∀ a, r = .ok a → post a := by
  have hshows : Session.Shows array t.abs.handles t false := by
    refine ⟨ht, hactive, fun pageId => ?_, [], rfl, rfl⟩
    exact (Session.handlesOf_abs t pageId).trans_le (hfew pageId)
  obtain ⟨trace, r, t', _, hrun, hshows, ⟨rfl, hpost⟩ | ⟨-, hfalse⟩⟩ :=
    Program.Ensures.run (Session.reads_implements array t.abs.handles) h hshows
  · obtain ⟨scope, hhandles, hnil⟩ := hshows.handles
    obtain rfl := List.eq_nil_of_length_eq_zero hnil
    exact ⟨trace, r, t', hrun, hshows.sound, hshows.active, hhandles, hpost⟩
  · exact hfalse.elim

end PageProgram

end DanDB.Storage
