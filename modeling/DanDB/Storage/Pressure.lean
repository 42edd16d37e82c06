import DanDB.Storage.Residency
import DanDB.Storage.Unwinding

/-!
# Pages that need a frame

A page that is not in the pool needs a frame.  If every frame holds a page that is
pinned or dirty, the pool reports what its replacer says, and that is `NotFound`.
No other call of a program on pages is answered with this code.
-/

namespace DanDB.Platform

open DanDB.Core

/-- No failure of the file system says that something was not found. -/
def FileHandle.FaultsOther (file : FileHandle) : Prop :=
  ∀ fault, some fault ∈ file.faults → fault.status.code ≠ .notFound

theorem FileHandle.SameHandle.faultsOther {file file' : FileHandle} (h : SameHandle file file')
    (hfaults : file.FaultsOther) : file'.FaultsOther :=
  fun fault hfault => hfaults fault (h.faults.subset hfault)

theorem FileHandle.readAt_other {file : FileHandle} (h : file.FaultsOther) (offset size : Nat) :
    (readAt offset size).Yields file fun r _ => OtherThanNotFound r := by
  refine Proc.yields_get_bind (Proc.yields_failIf_bind (fun _ => ?_) fun _ => ?_)
  · exact other_error (by rintro ⟨⟩)
  split
  · exact Proc.yields_pure (other_ok [])
  refine Proc.yields_failIf_bind (fun _ => other_error (by rintro ⟨⟩)) fun _ => ?_
  refine yields_nextFault_bind ?_ fun fault hfault => ?_
  · exact Proc.yields_failIf_bind (fun _ => other_error (by rintro ⟨⟩)) fun _ =>
      Proc.yields_pure (other_ok _)
  · exact Proc.yields_fail (other_error (h fault hfault))

theorem FileHandle.size_other (file : FileHandle) :
    size.Yields file fun r file' => OtherThanNotFound r ∧ file' = file :=
  Proc.yields_get_bind (Proc.yields_failIf_bind (fun _ => ⟨other_error nofun, rfl⟩) fun _ =>
    Proc.yields_pure ⟨other_ok _, rfl⟩)

end DanDB.Platform

namespace DanDB.Storage

open DanDB.Core Platform BufferPool

/-! ## Calls for pages -/

theorem DiskManager.readPage_other {disk : DiskManager} (h : disk.fileHandle.FaultsOther)
    (pageId : PageId) : (readPage pageId).Yields disk fun r _ => OtherThanNotFound r := by
  have hcheck : (checkPageId "read" pageId).Yields disk fun r disk' =>
      OtherThanNotFound r ∧ disk' = disk := by
    refine Proc.yields_failIf_bind (fun _ => ⟨other_error nofun, rfl⟩) fun _ => ?_
    refine Proc.yields_failIf_bind (fun _ => ⟨other_error nofun, rfl⟩) fun _ => ?_
    refine Proc.yields_failIf_bind (fun _ => ⟨other_error nofun, rfl⟩) fun _ => ?_
    have hsize : DiskManager.size.Yields disk fun r disk' => OtherThanNotFound r ∧ disk' = disk := by
      obtain ⟨hother, hfile⟩ := FileHandle.size_other disk.fileHandle
      exact ⟨hother, congrArg DiskManager.mk hfile⟩
    refine hsize.bind (fun _ disk' hmid => ?_) fun e _ hmid => ⟨other_error (hmid.1.code e rfl), hmid.2⟩
    exact Proc.yields_failIf_bind (fun _ => ⟨other_error nofun, hmid.2⟩) fun _ =>
      Proc.yields_pure ⟨other_ok _, hmid.2⟩
  refine hcheck.bind (fun offset disk' ⟨_, hdisk⟩ => ?_) fun e _ hmid => other_error (hmid.1.code e rfl)
  subst hdisk
  have hread : (onFile (FileHandle.readAt offset pageSize)).Yields disk' fun r _ =>
      OtherThanNotFound r := Proc.yields_zoom (FileHandle.readAt_other h offset pageSize)
  exact hread.bind (fun _ _ _ => Proc.yields_pure (other_ok _)) fun e _ hmid =>
    other_error (hmid.code e rfl)

theorem Pager.readCommitted_other {pager : Pager} (h : pager.diskManager.fileHandle.FaultsOther)
    (pageId : PageId) : (readCommitted pageId).Yields pager fun r _ => OtherThanNotFound r := by
  refine Proc.yields_get_bind ?_
  split
  · exact Proc.yields_pure (other_ok _)
  · exact Proc.yields_zoom (DiskManager.readPage_other h pageId)

namespace Session

/-- The page can be read, but the pool has neither the page nor room for it: every
frame is pinned or dirty. -/
structure Lacks (s : Session) (pageId : PageId) : Prop where
  named : pageId ≠ invalidPageId ∧ pageId ≠ headerPageId
  uncached : s.pager.bpm.pageFrames pageId = none
  held : ∀ f < s.pager.bpm.capacity,
    (s.pager.bpm.frames f).pinCount ≠ 0 ∨ (s.pager.bpm.frames f).isDirty = true
  stored : ∃ page pager, (Pager.readCommitted pageId).run s.pager = (.ok page, pager)

/-- The calls of the program do not ask for a page that the pool lacks. -/
def Room {α : Type} : PageProgram α → Session → Prop
  | .done _, _ => True
  | .diverge, _ => True
  | .call c next, s => (∀ pageId, c.1 = .getPage pageId → ¬s.Lacks pageId) ∧
      ∀ r s', s.call c = some (r, s') → Room (next r) s'

/-- A session whose files may fail, but not with `NotFound`. -/
structure Calm (s : Session) : Prop where
  sound : s.Sound
  faults : s.pager.diskManager.fileHandle.FaultsOther

variable {s s' : Session} {r : Reply} {c : Call}

theorem Calm.step (h : s.Calm) (hkeeps : c.KeepsStore) (hcall : s.call c = some (r, s')) :
    s'.Calm :=
  ⟨(h.sound.step hcall).1, (Step.sameStore hcall h.sound hkeeps).disk.handle.faultsOther h.faults⟩

theorem Sound.handlesOf_uncached (h : s.Sound) {pageId : PageId}
    (hnone : s.pager.bpm.pageFrames pageId = none) : s.handlesOf pageId = 0 := by
  refine List.count_eq_zero.mpr fun hmem => ?_
  obtain ⟨pin, hpin, rfl⟩ := List.mem_map.mp hmem
  have hframe := h.inv.pool.inv.pageFrames_pageId (List.mem_map_of_mem hpin)
  rw [show s.pager.bpm.pageId pin.frameId = s.pager.pinId pin from rfl, hnone] at hframe
  cases hframe

/-- The answer to a call for a page that the pool lacks. -/
theorem Calm.getPage_lacks (h : s.Calm) {pageId : PageId} (hlacks : s.Lacks pageId) :
    ∃ s', s.call (.getPage pageId) = some (.error BufferPoolManager.exhaustedStatus, s') := by
  obtain ⟨⟨hvalid, hne⟩, hnone, hheld, page, pager, hread⟩ := hlacks
  have hinv := h.sound.inv
  have hcommitted := Pager.readCommitted_yields hinv hvalid hne
  rw [Proc.Yields, hread] at hcommitted
  obtain ⟨⟨disk, hdisk, rfl⟩, ⟨data, hr, -⟩ | ⟨-, hr⟩ | ⟨e, hr, -⟩⟩ := hcommitted
  · cases hr
    have hfull := (BufferPoolManager.exhausted_iff hinv.pool.inv).mpr hheld
    have hcache := BufferPoolManager.cachePage_run_exhausted ⟨pageId, data⟩ hvalid hnone hfull
    have hget : (Pager.getPage pageId).run s.pager = (.error BufferPoolManager.exhaustedStatus,
        (s.pager.withDisk disk).withPool s.pager.bpm) := by
      rw [Pager.getPage_run_uncached hinv.isOpen hvalid hne hnone, Pager.loadPage,
        Proc.bind_run_ok hread]
      exact Pager.onPool_run hcache
    have hroom : s.handlesOf pageId < maxHandles := by
      rw [h.sound.handlesOf_uncached hnone]
      decide
    exact ⟨_, by rw [call, if_pos hroom, acquire, hget]⟩
  · cases hr
  · cases hr

/-- The answer to a call for a page that the pool does not lack. -/
theorem Calm.getPage_other (h : s.Calm) {pageId : PageId} (hroom : ¬s.Lacks pageId)
    {status : Status} (hcall : s.call (.getPage pageId) = some (.error status, s')) :
    status.code ≠ .notFound := by
  have hinv := h.sound.inv
  obtain ⟨hfew, hcall⟩ := call_getPage hcall
  have hget : (Pager.getPage pageId).Yields s.pager fun r _ => OtherThanNotFound r := by
    refine Proc.yields_get_bind (Proc.yields_failIf_bind (fun _ => other_error nofun) fun _ => ?_)
    refine Proc.yields_failIf_bind (fun _ => other_error nofun) fun hid => ?_
    obtain ⟨hvalid, hne⟩ := not_or.mp hid
    unfold Proc.Yields
    cases hf : s.pager.bpm.pageFrames pageId with
    | some f =>
      obtain ⟨bpm, hcached, -⟩ := BufferPoolManager.getPage_cached hinv.pool.inv hf
        (hinv.count_frame hf ▸ hfew.trans (by decide))
      rw [Proc.attempt_bind_run (Pager.onPool_run hcached)]
      exact other_ok _
    | none =>
      rw [Proc.attempt_bind_run (Pager.onPool_run (BufferPoolManager.getPage_run_none hvalid hf))]
      show (Pager.loadPage pageId).Yields s.pager fun r _ => OtherThanNotFound r
      rcases hread : (Pager.readCommitted pageId).run s.pager with ⟨e | page, pager⟩
      · have hother := Pager.readCommitted_other h.faults pageId
        rw [Proc.Yields, hread] at hother
        exact Proc.Yields.intro (Proc.bind_run_error hread) (other_error (hother.code e rfl))
      · have hcommitted := Pager.readCommitted_yields hinv hvalid hne
        rw [Proc.Yields, hread] at hcommitted
        obtain ⟨⟨disk, hdisk, rfl⟩, ⟨data, hr, -⟩ | ⟨-, hr⟩ | ⟨e, hr, -⟩⟩ := hcommitted
        · cases hr
          obtain ⟨f, bpm, hcache, -⟩ | ⟨hfull, -⟩ :=
            BufferPoolManager.cachePage_run hinv.pool.inv ⟨pageId, data⟩ hvalid hf
          · refine Proc.Yields.intro (Proc.bind_run_ok hread |>.trans (Pager.onPool_run hcache)) ?_
            exact other_ok _
          · exact absurd ⟨⟨hvalid, hne⟩, hf,
              (BufferPoolManager.exhausted_iff hinv.pool.inv).mp hfull, _, _, hread⟩ hroom
        · cases hr
        · cases hr
  rw [acquire] at hcall
  rcases hrun : (Pager.getPage pageId).run s.pager with ⟨e | pin, pager⟩
  · rw [hrun] at hcall
    rw [Proc.Yields, hrun] at hget
    cases hcall
    exact hget.code _ rfl
  · rw [hrun] at hcall
    cases hcall

theorem markDirty_other (flat : FlatPager) (pageId : PageId) :
    (FlatPager.markDirty pageId).Yields flat fun r _ => OtherThanNotFound r := by
  refine Proc.yields_get_bind (Proc.yields_failIf_bind (fun _ => other_error nofun) fun _ => ?_)
  refine Proc.yields_failIf_bind (fun _ => other_error nofun) fun _ => ?_
  refine Proc.yields_failIf_bind (fun _ => other_error nofun) fun _ => ?_
  exact Proc.yields_failIf_bind (fun _ => other_error nofun) fun _ =>
    Proc.yields_modify (other_ok ())

/-- Calls for the page of a handle. -/
theorem Calm.use_other (h : s.Calm) (hc : c.UsesHandle) {status : Status}
    (hcall : s.call c = some (.error status, s')) : status.code ≠ .notFound := by
  cases c with
  | read handle =>
    obtain ⟨pin, -, heq⟩ := Option.map_eq_some_iff.mp hcall
    cases heq
  | store handle data =>
    obtain ⟨pin, -, heq⟩ := Option.bind_eq_some_iff.mp hcall
    split at heq
    · cases heq
    · cases heq
  | mutablePage handle =>
    obtain ⟨pin, hpin, hroom, heq⟩ := call_mutablePage hcall
    have hperm := getElem?_perm hpin
    have hmutable := Pager.mutablePage_yields (h.sound.inv.perm hperm)
      (handlesOf_perm hperm _ ▸ hroom)
    unfold Proc.Yields at hmutable
    rw [makeMutable] at heq
    rcases hrun : (Pager.mutablePage pin).run s.pager with ⟨e | pin', pager⟩
    · rw [hrun] at hmutable heq
      cases heq
      obtain ⟨-, -, -, -, ⟨he, -⟩ | ⟨e', he, -, hflat⟩⟩ := hmutable
      · cases he
      · cases he
        have hother := markDirty_other s.pager.abs (s.pager.pinId pin)
        rw [Proc.Yields, hflat] at hother
        exact hother.code _ rfl
    · rw [hrun] at heq
      cases heq
  | _ => exact hc.elim

theorem getPage_ne_none (s : Session) (pageId : PageId) (s' : Session) :
    s.call (.getPage pageId) ≠ some (.ok none, s') := by
  intro hcall
  obtain ⟨-, hcall⟩ := call_getPage hcall
  rw [acquire] at hcall
  split at hcall <;> cases hcall

/-! ### Handles -/

/-- One more handle if there is a page. -/
theorem length_getPage {pageId : PageId} (hcall : s.call (.getPage pageId) = some (r, s')) :
    s.handles.length ≤ s'.handles.length ∧
      ∀ page, r = .ok page → s'.handles.length = s.handles.length + 1 := by
  obtain ⟨-, hcall⟩ := call_getPage hcall
  rw [acquire] at hcall
  split at hcall
  · cases hcall
    exact ⟨Nat.le_succ _, fun _ _ => rfl⟩
  · cases hcall
    exact ⟨Nat.le_refl _, by rintro page ⟨⟩⟩

theorem length_use (hc : c.UsesHandle) (hcall : s.call c = some (r, s')) :
    s'.handles.length = s.handles.length := by
  cases c with
  | read handle =>
    obtain ⟨pin, -, heq⟩ := Option.map_eq_some_iff.mp hcall
    cases heq
    rfl
  | store handle data =>
    obtain ⟨pin, -, heq⟩ := Option.bind_eq_some_iff.mp hcall
    split at heq
    · cases heq
      rfl
    · cases heq
  | mutablePage handle =>
    obtain ⟨pin, -, -, heq⟩ := call_mutablePage hcall
    rw [makeMutable] at heq
    split at heq
    · cases heq
      exact List.length_set
    · cases heq
      rfl
  | _ => exact hc.elim

theorem length_release (hcall : s.call (.release 0) = some (r, s')) :
    s.handles.length = s'.handles.length + 1 := by
  rw [call] at hcall
  obtain ⟨pin, hpin, heq⟩ := Option.map_eq_some_iff.mp hcall
  obtain ⟨hlt, -⟩ := List.getElem?_eq_some_iff.mp hpin
  cases heq
  show _ = (s.handles.eraseIdx 0).length + 1
  rw [List.length_eraseIdx_of_lt hlt, Nat.sub_add_cancel hlt]

theorem keepsStore_of_use (hc : c.UsesHandle) : c.KeepsStore := by
  cases c <;> trivial

/-- The first handle goes out of scope. -/
theorem call_release_zero (hcall : s.call (.release 0) = some (r, s')) : r = .ok none := by
  obtain ⟨pin, -, heq⟩ := Option.map_eq_some_iff.mp hcall
  cases heq
  rfl

end Session

/-! ## Other handles -/

/-- The call asks for a page or is about a handle. -/
def Call.Local : Call → Prop
  | .getPage _ => True
  | .release _ => True
  | c => c.UsesHandle

theorem Call.local_of_use {c : Call} (hc : c.UsesHandle) : c.Local := by
  cases c <;> first | exact trivial | exact hc

namespace FlatSession

variable {s s' t : FlatSession} {c : Call} {r : Reply} {others : List (PageId × Bool)}

/-- With other handles behind those of a program. -/
def withOthers (s : FlatSession) (others : List (PageId × Bool)) : FlatSession :=
  ⟨s.flat, s.handles ++ others⟩

theorem flat_withOthers : (s.withOthers others).flat = s.flat := rfl

theorem getElem?_withOthers {handle : Nat} {pin : PageId × Bool} (h : s.handles[handle]? = some pin) :
    (s.withOthers others).handles[handle]? = some pin := by
  obtain ⟨hlt, -⟩ := List.getElem?_eq_some_iff.mp h
  rw [withOthers, List.getElem?_append_left hlt, h]

/-- The other handles do not change an answer. -/
theorem call_withOthers (hc : c.Local) (h : s.call c = some (r, s')) :
    (s.withOthers others).call c = some (r, s'.withOthers others) := by
  cases c with
  | getPage pageId =>
    rw [call] at h ⊢
    rw [flat_withOthers]
    rcases hrun : (FlatPager.getPage pageId).run s.flat with ⟨e | data, flat⟩ <;>
      rw [hrun] at h <;> cases h <;> rfl
  | read handle =>
    obtain ⟨pin, hpin, heq⟩ := Option.map_eq_some_iff.mp h
    cases heq
    rw [call, getElem?_withOthers hpin]
    rfl
  | mutablePage handle =>
    obtain ⟨pin, hpin, heq⟩ := Option.map_eq_some_iff.mp h
    obtain ⟨hlt, -⟩ := List.getElem?_eq_some_iff.mp hpin
    rw [call, getElem?_withOthers hpin, Option.map_some, flat_withOthers]
    rcases hrun : (FlatPager.markDirty pin.1).run s.flat with ⟨e | _, flat⟩ <;>
      rw [hrun] at heq <;> cases heq
    · rfl
    · exact congrArg (fun handles => some (Except.ok none, (⟨flat, handles⟩ : FlatSession)))
        (List.set_append_left _ _ hlt)
  | store handle data =>
    obtain ⟨pin, hpin, heq⟩ := Option.bind_eq_some_iff.mp h
    rw [call, getElem?_withOthers hpin]
    split at heq
    · rename_i hdirty
      cases heq
      exact if_pos hdirty
    · cases heq
  | release handle =>
    obtain ⟨pin, hpin, heq⟩ := Option.map_eq_some_iff.mp h
    obtain ⟨hlt, -⟩ := List.getElem?_eq_some_iff.mp hpin
    cases heq
    rw [call, getElem?_withOthers hpin]
    exact congrArg (fun handles => some (Except.ok none, (⟨s.flat, handles⟩ : FlatSession)))
      (List.eraseIdx_append_of_lt_length hlt _)
  | _ => exact hc.elim

/-- An answer that is given with other handles is one without them, when there is one. -/
theorem answers_of_withOthers {c : PageCall} (hc : c.1.Local) (henabled : service.Enabled s c)
    (h : (s.withOthers others).call c = some (r, t)) :
    ∃ s', service.answers s c r s' ∧ t = s'.withOthers others := by
  obtain ⟨c, hquiet⟩ := c
  obtain ⟨r', s', hallows, hcall⟩ : ∃ r' s', s.Allows c ∧ s.call c = some (r', s') := by
    obtain henabled | ⟨r', hrefuses⟩ := henabled
    · exact henabled
    · cases hrefuses with
      | getPage pageId hfew => exact ⟨_, _, hfew, rfl⟩
      | _ => exact hc.elim
  rw [call_withOthers hc hcall] at h
  obtain ⟨rfl, rfl⟩ := Prod.mk.inj (Option.some.inj h)
  exact ⟨s', ⟨hallows, hcall⟩, rfl⟩

end FlatSession

/-! ## Runs -/

namespace PageProgram

open Session

variable {α β : Type} {x : PageProgram α} {own : Status → Prop} {n : Nat} {t t' : Session}
  {trace : List (PageCall × Reply)} {r : Except Status α} {status : Status}

/-- The first call of a run and the rest of it. -/
theorem run_call {c : PageCall} {next : Reply → PageProgram α}
    (h : (Program.call c next : PageProgram α).run machine t = some (trace, r, t')) :
    ∃ reply t₁ rest, t.call c = some (reply, t₁) ∧
      (next reply).run machine t₁ = some (rest, r, t') := by
  rw [Program.run] at h
  obtain ⟨⟨reply, t₁⟩, hcall, h⟩ := Option.bind_eq_some_iff.mp h
  obtain ⟨⟨rest, r', t₂⟩, hrun, h⟩ := Option.bind_eq_some_iff.mp h
  cases h
  exact ⟨reply, t₁, rest, hcall, hrun⟩

theorem run_of_call {c : PageCall} {next : Reply → PageProgram α} {reply : Reply} {t₁ : Session}
    (hcall : t.call c = some (reply, t₁))
    (hrun : (next reply).run machine t₁ = some (trace, r, t')) :
    (Program.call c next : PageProgram α).run machine t = some ((c, reply) :: trace, r, t') := by
  have hcall' : machine t c = some (reply, t₁) := hcall
  rw [Program.run, hcall']
  show ((next reply).run machine t₁).bind _ = _
  rw [hrun]
  rfl

/-- A run of a sequence stops in the first half or goes on with its value. -/
theorem run_bind {f : α → PageProgram β} {r : Except Status β}
    (h : (x >>= f).run machine t = some (trace, r, t')) :
    (∃ status, r = .error status ∧ ∃ first, x.run machine t = some (first, .error status, t')) ∨
      ∃ a first t₁ rest, x.run machine t = some (first, .ok a, t₁) ∧
        (f a).run machine t₁ = some (rest, r, t') := by
  induction x generalizing t trace with
  | done r' =>
    cases r' with
    | error status =>
      cases h
      exact .inl ⟨status, rfl, [], rfl⟩
    | ok a => exact .inr ⟨a, [], t, trace, rfl, h⟩
  | diverge => cases h
  | call c next ih =>
    obtain ⟨reply, t₁, rest, hcall, hrun⟩ := run_call h
    obtain ⟨status, hr, first, hfirst⟩ | ⟨a, first, t₂, second, hfirst, hsecond⟩ := ih reply hrun
    · exact .inl ⟨status, hr, _, run_of_call hcall hfirst⟩
    · exact .inr ⟨a, _, t₂, second, run_of_call hcall hfirst, hsecond⟩

/-- Where there is room for a sequence there is room for its first half, and then
for its second. -/
theorem room_bind {f : α → PageProgram β} (h : Room (x >>= f) t) :
    Room x t ∧ ∀ first a t₁, x.run machine t = some (first, .ok a, t₁) → Room (f a) t₁ := by
  induction x generalizing t with
  | done r' =>
    refine ⟨trivial, fun first a t₁ hrun => ?_⟩
    cases hrun
    exact h
  | diverge => exact ⟨trivial, nofun⟩
  | call c next ih =>
    refine ⟨⟨h.1, fun reply t₁ hcall => (ih reply (h.2 reply t₁ hcall)).1⟩, ?_⟩
    intro first a t₁ hrun
    obtain ⟨reply, t₂, rest, hcall, hrest⟩ := run_call hrun
    exact (ih reply (h.2 reply t₂ hcall)).2 rest a t₁ hrest

/-! ### Errors of calls -/

theorem Unwinds.room (h : Unwinds status n x) (t : Session) : Room x t := by
  induction h generalizing t with
  | done => trivial
  | release h ih =>
    refine ⟨nofun, fun reply t' hcall => ?_⟩
    obtain rfl := call_release_zero hcall
    exact ih t'

theorem Unwinds.run (h : Unwinds status n x) (hn : n ≤ t.handles.length) :
    ∃ trace t', x.run machine t = some (trace, .error status, t') := by
  induction h generalizing t with
  | done => exact ⟨[], t, rfl⟩
  | @release n next h ih =>
    obtain ⟨pin, pins, hpins⟩ : ∃ pin pins, t.handles = pin :: pins :=
      List.exists_cons_of_length_pos (Nat.zero_lt_of_lt hn)
    obtain ⟨reply, t₁, hcall, hlength⟩ : ∃ reply t₁, t.call (.release 0) = some (reply, t₁) ∧
        n ≤ t₁.handles.length := by
      rw [hpins] at hn
      rw [call, hpins]
      exact ⟨_, _, rfl, Nat.le_of_succ_le_succ hn⟩
    obtain rfl := call_release_zero hcall
    obtain ⟨trace, t', hrun⟩ := ih hlength
    exact ⟨_, t', run_of_call hcall hrun⟩

theorem Unwinds.run_eq (h : Unwinds status n x) (hrun : x.run machine t = some (trace, r, t')) :
    r = .error status := by
  induction h generalizing t trace with
  | done =>
    cases hrun
    rfl
  | release h ih =>
    obtain ⟨reply, t₁, rest, hcall, hrest⟩ := run_call hrun
    obtain rfl := call_release_zero hcall
    exact ih hrest

theorem Unwinds.calm (h : Unwinds status n x) (ht : t.Calm)
    (hrun : x.run machine t = some (trace, r, t')) : t'.Calm := by
  induction h generalizing t trace with
  | done =>
    cases hrun
    exact ht
  | release h ih =>
    obtain ⟨reply, t₁, rest, hcall, hrest⟩ := run_call hrun
    have ht₁ := ht.step (c := .release 0) trivial hcall
    obtain rfl := call_release_zero hcall
    exact ih ht₁ hrest

/-! ### Programs that propagate them -/

theorem Propagates.calm (h : Propagates own n x) (ht : t.Calm)
    (hrun : x.run machine t = some (trace, r, t')) : t'.Calm := by
  induction h generalizing t trace with
  | done =>
    cases hrun
    exact ht
  | diverge => cases hrun
  | @getPage n pageId next hok herror ih =>
    obtain ⟨reply, t₁, rest, hcall, hrest⟩ := run_call hrun
    have ht₁ := ht.step (c := .getPage pageId) trivial hcall
    obtain status | page := reply
    · exact (herror status).calm ht₁ hrest
    · cases page with
      | some page => exact ih page ht₁ hrest
      | none => exact absurd hcall (getPage_ne_none t pageId t₁)
  | use hc hok herror ih =>
    obtain ⟨reply, t₁, rest, hcall, hrest⟩ := run_call hrun
    have ht₁ := ht.step (keepsStore_of_use hc) hcall
    obtain status | page := reply
    · exact (herror status).calm ht₁ hrest
    · exact ih page ht₁ hrest
  | release h ih =>
    obtain ⟨reply, t₁, rest, hcall, hrest⟩ := run_call hrun
    have ht₁ := ht.step (c := .release 0) trivial hcall
    obtain rfl := call_release_zero hcall
    exact ih ht₁ hrest

/-- Where there is room, `NotFound` is an error of the program's own. -/
theorem Propagates.run_error (h : Propagates own n x) (ht : t.Calm) (hroom : Room x t)
    (hrun : x.run machine t = some (trace, .error status, t')) :
    own status ∨ status.code ≠ .notFound := by
  induction h generalizing t trace with
  | done h =>
    cases hrun
    exact .inl (h status rfl)
  | diverge => cases hrun
  | @getPage n pageId next hok herror ih =>
    obtain ⟨reply, t₁, rest, hcall, hrest⟩ := run_call hrun
    have ht₁ := ht.step (c := .getPage pageId) trivial hcall
    obtain status' | page := reply
    · obtain hstatus := Except.error.inj ((herror status').run_eq hrest)
      subst hstatus
      exact .inr (ht.getPage_other (hroom.1 pageId rfl) hcall)
    · cases page with
      | some page => exact ih page ht₁ (hroom.2 _ _ hcall) hrest
      | none => exact absurd hcall (getPage_ne_none t pageId t₁)
  | use hc hok herror ih =>
    obtain ⟨reply, t₁, rest, hcall, hrest⟩ := run_call hrun
    have ht₁ := ht.step (keepsStore_of_use hc) hcall
    obtain status' | page := reply
    · obtain hstatus := Except.error.inj ((herror status').run_eq hrest)
      subst hstatus
      exact .inr (ht.use_other hc hcall)
    · exact ih page ht₁ (hroom.2 _ _ hcall) hrest
  | release h ih =>
    obtain ⟨reply, t₁, rest, hcall, hrest⟩ := run_call hrun
    have ht₁ := ht.step (c := .release 0) trivial hcall
    have hroom₁ := hroom.2 _ _ hcall
    obtain rfl := call_release_zero hcall
    exact ih ht₁ hroom₁ hrest

/-- A call that there is room for is answered, and then there is none. -/
theorem exists_of_not_room {c : PageCall} {next : Reply → PageProgram α}
    (hroom : ¬Room (.call c next) t) (hc : ∀ pageId, c.1 = .getPage pageId → ¬t.Lacks pageId) :
    ∃ reply t₁, t.call c = some (reply, t₁) ∧ ¬Room (next reply) t₁ := by
  obtain ⟨reply, hreply⟩ := not_forall.mp fun h => hroom ⟨hc, h⟩
  obtain ⟨t₁, ht₁⟩ := not_forall.mp hreply
  obtain ⟨hcall, hnext⟩ := Classical.not_imp.mp ht₁
  exact ⟨reply, t₁, hcall, hnext⟩

/-- Where there is no room, the program ends with the status of the pool. -/
theorem Propagates.run_exhausted (h : Propagates own n x) (ht : t.Calm)
    (hn : n ≤ t.handles.length) (hroom : ¬Room x t) :
    ∃ trace t', x.run machine t = some (trace, .error BufferPoolManager.exhaustedStatus, t') := by
  induction h generalizing t with
  | done => exact absurd trivial hroom
  | diverge => exact absurd trivial hroom
  | @getPage n pageId next hok herror ih =>
    by_cases hlacks : t.Lacks pageId
    · obtain ⟨t₁, hcall⟩ := ht.getPage_lacks hlacks
      obtain ⟨rest, t', hrun⟩ := (herror BufferPoolManager.exhaustedStatus).run
        (hn.trans (length_getPage hcall).1)
      exact ⟨_, t', run_of_call (c := ⟨.getPage pageId, trivial⟩) hcall hrun⟩
    · obtain ⟨reply, t₁, hcall, hnext⟩ := exists_of_not_room hroom fun pageId' heq => by
        cases heq
        exact hlacks
      obtain status | page := reply
      · exact absurd ((herror status).room t₁) hnext
      · cases page with
        | none => exact absurd hcall (getPage_ne_none t pageId t₁)
        | some page =>
          have hlength := (length_getPage hcall).2 _ rfl
          obtain ⟨rest, t', hrun⟩ := ih page (ht.step (c := .getPage pageId) trivial hcall)
            (by rw [hlength]; exact Nat.succ_le_succ hn) hnext
          exact ⟨_, t', run_of_call hcall hrun⟩
  | @use n c next hc hok herror ih =>
    obtain ⟨reply, t₁, hcall, hnext⟩ := exists_of_not_room hroom fun pageId heq => by
      rw [heq] at hc
      exact hc.elim
    obtain status | page := reply
    · exact absurd ((herror status).room t₁) hnext
    · obtain ⟨rest, t', hrun⟩ := ih page (ht.step (keepsStore_of_use hc) hcall)
        (hn.trans (length_use hc hcall).ge) hnext
      exact ⟨_, t', run_of_call hcall hrun⟩
  | @release n next h ih =>
    obtain ⟨reply, t₁, hcall, hnext⟩ := exists_of_not_room hroom nofun
    have ht₁ := ht.step (c := .release 0) trivial hcall
    have hlength : t.handles.length = t₁.handles.length + 1 := length_release hcall
    obtain rfl := call_release_zero hcall
    obtain ⟨rest, t', hrun⟩ := ih ht₁ (by omega) hnext
    exact ⟨_, t', run_of_call hcall hrun⟩

/-- Where there is room, a program that propagates errors does what it does on a flat
array of pages without other handles, or ends with an error of a file. -/
theorem Propagates.run_ensures (h : Propagates own n x) (ht : t.Calm) (hroom : Room x t)
    {s : FlatSession} {others : List (PageId × Bool)} (hs : t.abs = s.withOthers others)
    {refused post : Except Status α → FlatSession → Prop}
    (hflat : x.Ensures FlatSession.service refused s post)
    (hrun : x.run machine t = some (trace, r, t')) :
    (∃ s', t'.abs = s'.withOthers others ∧ post r s') ∨
      ∃ status, r = .error status ∧ status.code ≠ .notFound := by
  induction h generalizing t s trace with
  | done =>
    cases hrun
    exact .inl ⟨s, hs, hflat⟩
  | diverge => cases hrun
  | @getPage n pageId next hok herror ih =>
    obtain ⟨reply, t₁, rest, hcall, hrest⟩ := run_call hrun
    have ht₁ := ht.step (c := .getPage pageId) trivial hcall
    obtain status | page := reply
    · exact .inr ⟨status, (herror status).run_eq hrest, ht.getPage_other (hroom.1 pageId rfl) hcall⟩
    · obtain ⟨s₁, hanswer, hs₁⟩ := FlatSession.answers_of_withOthers (c := ⟨.getPage pageId, trivial⟩) trivial
        (hflat.1) (hs ▸ ht.sound.answered_of_ok hcall)
      have hanswer := hflat.2.1 _ _ hanswer
      cases page with
      | some page => exact ih page ht₁ (hroom.2 _ _ hcall) hs₁ hanswer hrest
      | none => exact absurd hcall (getPage_ne_none t pageId t₁)
  | @use n c next hc hok herror ih =>
    obtain ⟨reply, t₁, rest, hcall, hrest⟩ := run_call hrun
    have ht₁ := ht.step (keepsStore_of_use hc) hcall
    obtain status | page := reply
    · exact .inr ⟨status, (herror status).run_eq hrest, ht.use_other hc hcall⟩
    · obtain ⟨s₁, hanswer, hs₁⟩ := FlatSession.answers_of_withOthers (Call.local_of_use hc)
        (hflat.1) (hs ▸ ht.sound.answered_of_ok hcall)
      exact ih page ht₁ (hroom.2 _ _ hcall) hs₁ (hflat.2.1 _ _ hanswer) hrest
  | release h ih =>
    obtain ⟨reply, t₁, rest, hcall, hrest⟩ := run_call hrun
    have ht₁ := ht.step (c := .release 0) trivial hcall
    have hroom₁ := hroom.2 _ _ hcall
    obtain rfl := call_release_zero hcall
    obtain ⟨s₁, hanswer, hs₁⟩ := FlatSession.answers_of_withOthers (c := ⟨.release 0, trivial⟩) trivial
      (hflat.1) (hs ▸ ht.sound.answered_of_ok hcall)
    exact ih ht₁ hroom₁ hs₁ (hflat.2.1 _ _ hanswer) hrest

end PageProgram

end DanDB.Storage
