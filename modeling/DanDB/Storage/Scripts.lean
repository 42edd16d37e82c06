import DanDB.Storage.FrameCount
import DanDB.Storage.PageProgram

/-!
# Scripts

The frames of a pool that are pinned or dirty have the page of a handle or a page
of the transaction.  As long as there are fewer of these than frames, the pool has
room, and what a session answers to a script of calls, or to a program, can be
computed on the flat array (`Sound.play`, `Sound.run_program`).
-/

namespace DanDB.BufferPool.BufferPoolManager

open Storage

/-- A frame of a pool that has one. -/
theorem Inv.frame_eq_zero {bpm : BufferPoolManager} {pinned : List FrameId} (h : bpm.Inv pinned)
    (hcapacity : bpm.capacity = 1) {pageId : PageId} {f : FrameId}
    (hf : bpm.pageFrames pageId = some f) : f = 0 := by
  have hlt := (h.mapped pageId f hf).1
  rw [hcapacity] at hlt
  exact Nat.lt_one_iff.mp hlt

end DanDB.BufferPool.BufferPoolManager

namespace DanDB.Storage

open DanDB.Core DanDB.BufferPool

/-- A page of equal bytes. -/
def filled (byte : Byte) : PageData := ⟨List.replicate pageSize byte, List.length_replicate⟩

/-! ## The flat array -/

namespace FlatSession

/-- There are more frames than handles and changed pages. -/
def FitsIn (s : FlatSession) (frameCount : Nat) : Prop :=
  s.handles.length + s.flat.dirtyPageIds.length < frameCount

instance (s : FlatSession) (frameCount : Nat) : Decidable (s.FitsIn frameCount) :=
  inferInstanceAs (Decidable (_ < _))

/-- The pool has room for the call, which does not need many handles. -/
def Ready (s : FlatSession) (frameCount : Nat) : Call → Prop
  | .getPage _ => s.FitsIn frameCount
  | .newPage => s.FitsIn frameCount ∧ s.flat.active.header.pageCount ≠ invalidPageId
  | .mutablePage _ => s.handles.length ≤ frameCount
  | .setSystemRoots tables columns indexes indexColumns =>
    (s.flat.active.header.withRoots tables columns indexes indexColumns).Valid
  | .setDiskFaults _ | .setWalFaults _ => False
  | _ => True

instance (s : FlatSession) (frameCount : Nat) : (c : Call) → Decidable (s.Ready frameCount c)
  | .getPage _ => inferInstanceAs (Decidable (s.FitsIn _))
  | .newPage => inferInstanceAs (Decidable (s.FitsIn _ ∧ _ ≠ _))
  | .mutablePage _ => inferInstanceAs (Decidable (_ ≤ _))
  | .setSystemRoots _ _ _ _ => inferInstanceAs (Decidable (DatabaseHeader.Valid _))
  | .setDiskFaults _ | .setWalFaults _ => .isFalse id
  | .beginTransaction | .read _ | .store _ _ | .release _ | .commitTransaction _
  | .rollbackTransaction _ | .markTransactionFailed | .checkpoint _ => .isTrue trivial

/-- The answers to a script, if the session is ready for each of its calls. -/
def play (frameCount : Nat) (s : FlatSession) :
    List Call → Option (List (Call × Reply) × FlatSession)
  | [] => some ([], s)
  | c :: calls =>
    if s.Ready frameCount c then do
      let (r, s') ← s.call c
      let (trace, s'') ← play frameCount s' calls
      return ((c, r) :: trace, s'')
    else none

/-- The flat array as a machine for programs, as long as the pool has room. -/
def machine (frameCount : Nat) (s : FlatSession) (c : PageCall) : Option (Reply × FlatSession) :=
  if s.Ready frameCount c.1 then s.call c.1 else none

variable {s : FlatSession} {frameCount : Nat} {c : Call}

theorem Ready.quiet (h : s.Ready frameCount c) : c.Quiet := by
  cases c <;> first | exact trivial | exact h

theorem Ready.allows (h : s.Ready frameCount c) (hframes : frameCount ≤ Session.maxHandles) :
    s.Allows c := by
  have hle (pageId : PageId) : s.handlesOf pageId ≤ s.handles.length :=
    List.count_le_length.trans (List.length_map ..).le
  cases c with
  | getPage pageId =>
    exact ((hle pageId).trans (Nat.le_add_right ..)).trans_lt (Nat.lt_of_lt_of_le h hframes)
  | mutablePage handle =>
    exact fun pin _ => ((hle pin.1).trans (Nat.le_trans h hframes)).trans_lt (by decide)
  | newPage => exact h.2
  | setSystemRoots _ _ _ _ => exact h
  | _ => exact trivial

end FlatSession

/-! ## Sessions -/

namespace Session

variable {s s' : Session} {c : Call} {r : Reply} {flat : FlatSession} {pager : Pager}
  {frameCount : Nat} {calls : List Call} {trace : List (Call × Reply)}

/-- A frame that is pinned or dirty has the page of a handle or a page of the
transaction. -/
theorem Sound.not_exhausted (h : s.Sound) (hfits : s.abs.FitsIn s.pager.frameCount) :
    ¬s.pager.bpm.Exhausted := by
  intro hfull
  have hinv := h.inv.pool.inv
  rw [BufferPoolManager.exhausted_iff hinv] at hfull
  have hsubset : List.range s.pager.bpm.capacity ⊆ s.handles.map PagePin.frameId ++
      s.abs.flat.dirtyPageIds.filterMap s.pager.bpm.pageFrames := by
    intro f hmem
    have hf := List.mem_range.mp hmem
    refine List.mem_append.mpr ((hfull f hf).imp (fun hpin => ?_) fun hdirty => ?_)
    · exact not_not.mp fun hnot => hpin ((hinv.pinCount_eq_zero hf).mpr hnot)
    · have hfree : f ∉ s.pager.bpm.freeFrameIds := fun hfree => by
        rw [hinv.freeEmpty f hfree] at hdirty
        cases hdirty
      have hframe := hinv.covered f hf hfree
      refine List.mem_filterMap.mpr ⟨_, h.inv.pool.frameDirty _ ?_, hframe⟩
      rwa [BufferPoolManager.dirty_of_pageFrames hframe]
  have hlength := (List.subperm_of_subset List.nodup_range hsubset).length_le
  rw [List.length_range, List.length_append, List.length_map] at hlength
  have hdirty := List.length_filterMap_le s.pager.bpm.pageFrames s.abs.flat.dirtyPageIds
  refine absurd hfits (Nat.not_lt.mpr (hlength.trans ?_))
  rw [abs, List.length_map]
  exact Nat.add_le_add_left hdirty _

/-- What the flat array answers, a session answers that is ready for the call. -/
theorem Sound.exists_answer (h : s.Sound) (hno : s.NoFaults) (hready : s.abs.Ready s.pager.frameCount c)
    (hframes : s.pager.frameCount ≤ maxHandles) (hcall : s.abs.call c = some (r, flat)) :
    ∃ s', s.Step c r s' ∧ s'.abs = flat := by
  obtain ⟨r', s', hstep⟩ := exists_call hready.quiet (hready.allows hframes) hcall
  obtain ⟨-, hanswer | ⟨status, -, -, hwhy⟩ | ⟨_, _, -, -, hfaults, -⟩⟩ := h.step hstep
  · rw [hcall] at hanswer
    obtain ⟨rfl, rfl⟩ := Prod.mk.inj (Option.some.inj hanswer)
    exact ⟨s', hstep, rfl⟩
  · cases hwhy with
    | getPage _ hfull => exact absurd hfull (h.not_exhausted hready)
    | newPage hfull => exact absurd hfull (h.not_exhausted hready.1)
    | fault _ _ hfault => exact absurd hno hfault
    | tooLarge order _ hlarge =>
      rw [FlatSession.call, if_pos hlarge] at hcall
      cases hcall
  · exact absurd hno.2 hfaults

/-- A session after a script. -/
structure Played (s : Session) (trace : List (Call × Reply)) (flat : FlatSession)
    (s' : Session) : Prop where
  runs : Runs Step s trace s'
  quiet : ∀ entry ∈ trace, entry.1.Quiet
  abs : s'.abs = flat
  sound : s'.Sound
  noFaults : s'.NoFaults
  frameCount : s'.pager.frameCount = s.pager.frameCount

/-- A session answers a script as the flat array does. -/
theorem Sound.play (h : s.Sound) (hno : s.NoFaults) (hframes : s.pager.frameCount = frameCount)
    (hsmall : frameCount ≤ maxHandles)
    (hplay : s.abs.play frameCount calls = some (trace, flat)) :
    ∃ s', s.Played trace flat s' := by
  subst hframes
  induction calls generalizing s trace with
  | nil =>
    cases hplay
    exact ⟨s, .nil s, nofun, rfl, h, hno, rfl⟩
  | cons c calls ih =>
    rw [FlatSession.play] at hplay
    split at hplay
    swap
    · cases hplay
    rename_i hready
    obtain ⟨⟨r, flat₁⟩, hcall, hplay⟩ := Option.bind_eq_some_iff.mp hplay
    obtain ⟨⟨rest, flat₂⟩, hrest, heq⟩ := Option.bind_eq_some_iff.mp hplay
    cases heq
    obtain ⟨s₁, hstep, rfl⟩ := h.exists_answer hno hready hsmall hcall
    have hframes := hstep.frameCount
    rw [← hframes] at hrest
    obtain ⟨s', hs'⟩ := ih (h.step hstep).1 (h.noFaults hno hready.quiet hstep)
      (hframes.trans_le hsmall) hrest
    refine ⟨s', .cons hstep hs'.runs, fun entry hmem => ?_, hs'.abs, hs'.sound, hs'.noFaults,
      hs'.frameCount.trans hframes⟩
    obtain rfl | hmem := List.mem_cons.mp hmem
    · exact hready.quiet
    · exact hs'.quiet entry hmem

/-- A program runs on a session as it does on the flat array. -/
theorem Sound.run_program {α : Type} {x : PageProgram α} {r : Except Status α}
    {trace : List (PageCall × Reply)} (h : s.Sound) (hno : s.NoFaults)
    (hframes : s.pager.frameCount = frameCount) (hsmall : frameCount ≤ maxHandles)
    (hrun : x.run (FlatSession.machine frameCount) s.abs = some (trace, r, flat)) :
    ∃ s', x.run machine s = some (trace, r, s') ∧
      s.Played (trace.map fun entry => (entry.1.1, entry.2)) flat s' := by
  subst hframes
  induction x generalizing s trace with
  | done result =>
    cases hrun
    exact ⟨s, rfl, .nil s, nofun, rfl, h, hno, rfl⟩
  | diverge => cases hrun
  | call c next ih =>
    obtain ⟨⟨reply, flat₁⟩, hcall, hrun⟩ := Option.bind_eq_some_iff.mp hrun
    obtain ⟨⟨rest, result, flat₂⟩, hrest, heq⟩ := Option.bind_eq_some_iff.mp hrun
    cases heq
    rw [FlatSession.machine] at hcall
    split at hcall
    swap
    · cases hcall
    rename_i hready
    obtain ⟨s₁, hstep, rfl⟩ := h.exists_answer hno hready hsmall hcall
    have hframes := hstep.frameCount
    rw [← hframes] at hrest
    obtain ⟨s', hrun', hs'⟩ := ih reply (h.step hstep).1 (h.noFaults hno hready.quiet hstep)
      (hframes.trans_le hsmall) hrest
    refine ⟨s', ?_, .cons hstep hs'.runs, fun entry hmem => ?_, hs'.abs, hs'.sound, hs'.noFaults,
      hs'.frameCount.trans hframes⟩
    · exact Option.bind_eq_some_iff.mpr
        ⟨(reply, s₁), hstep, Option.bind_eq_some_iff.mpr ⟨_, hrun', rfl⟩⟩
    · obtain rfl | hmem := List.mem_cons.mp hmem
      · exact hready.quiet
      · exact hs'.quiet entry hmem

/-- A program that has just opened or created a database plays a script. -/
theorem Starts.play {view : PageArray} (h : Starts view pager)
    (hframes : pager.frameCount = frameCount) (hsmall : frameCount ≤ maxHandles)
    (hplay : FlatSession.play frameCount ⟨.settled view, []⟩ calls = some (trace, flat)) :
    ∃ s, (start pager).Played trace flat s := by
  obtain ⟨hsound, hno, habs⟩ := h.sound
  rw [← habs] at hplay
  exact hsound.play hno hframes hsmall hplay

/-- A script goes on. -/
theorem Played.play {trace' : List (Call × Reply)} {flat' : FlatSession} (h : s.Played trace flat s')
    (hframes : s.pager.frameCount = frameCount) (hsmall : frameCount ≤ maxHandles)
    (hplay : flat.play frameCount calls = some (trace', flat')) :
    ∃ s'', s'.Played trace' flat' s'' :=
  h.sound.play h.noFaults (h.frameCount.trans hframes) hsmall (h.abs ▸ hplay)

theorem Played.step (h : s.Played [(c, r)] flat s') : s.Step c r s' := by
  obtain _ | ⟨hstep, hrest⟩ := h.runs
  cases hrest
  exact hstep

/-- A new database, and a script played on it. -/
theorem exists_played (frameCount : Nat) (hpos : 0 < frameCount) (hsmall : frameCount ≤ maxHandles)
    (hplay : FlatSession.play frameCount ⟨.settled (Pager.emptyView 7), []⟩ calls =
      some (trace, flat)) :
    ∃ pager s, Pager.createEmpty "db" ⟨none, none⟩ frameCount 7 = .ok pager ∧
      (start pager).Played trace flat s := by
  obtain ⟨pager, hcreate, -⟩ := Pager.createEmpty_eq "db" hpos 7
  obtain ⟨s, hs⟩ := (Starts.create hcreate).play (Pager.frameCount_of_createEmpty hcreate) hsmall
    hplay
  exact ⟨pager, s, hcreate, hs⟩

/-- A database that is opened again, and a script played on it. -/
theorem Played.reopen {view : PageArray} {trace' : List (Call × Reply)} {flat' : FlatSession}
    (h : (start pager).Played trace flat s) (hstart : Starts view pager)
    (hknown : flat.flat.status ≠ .unresolved) (frameCount : Nat) (hpos : 0 < frameCount)
    (hsmall : frameCount ≤ maxHandles)
    (hplay : FlatSession.play frameCount ⟨.settled flat.flat.committed, []⟩ calls =
      some (trace', flat')) :
    ∃ pager' s', Pager.open .insertion "db" s.pager.files frameCount = .ok pager' ∧
      Starts flat.flat.committed pager' ∧ (start pager').Played trace' flat' s' := by
  rw [← h.abs] at hknown hplay
  obtain ⟨log, pager', hopen, -⟩ := h.sound.open_files hknown .insertion "db" hpos
  have hstart' : Starts s.abs.flat.committed pager' := .reopen hstart h.runs hknown hopen
  obtain ⟨s', hs'⟩ := hstart'.play (Pager.frameCount_of_open hopen) hsmall hplay
  exact ⟨pager', s', hopen, h.abs ▸ hstart', hs'⟩

end Session

end DanDB.Storage
