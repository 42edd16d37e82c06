import DanDB.Storage.Crash
import DanDB.Storage.PageProgram

/-!
# Programs that leave pages or files alone

A program that makes no call that writes to a file: whatever becomes of the pages in
the pool, the file and the log hold what they held.  A program that only reads leaves the
pages as they are, too.
-/

namespace DanDB.Storage

open DanDB.Core

namespace PageCall

/-- The call writes to neither file. -/
def KeepsStore (c : PageCall) : Prop := c.1.KeepsStore

/-- The call only reads. -/
def Reads (c : PageCall) : Prop :=
  match c.1 with
  | .getPage _ => True
  | .read _ => True
  | .release _ => True
  | _ => False

theorem Reads.keepsStore {c : PageCall} (h : c.Reads) : c.KeepsStore := by
  obtain ⟨c, hquiet⟩ := c
  cases c with
  | getPage pageId => trivial
  | read handle => trivial
  | release handle => trivial
  | _ => exact h.elim

end PageCall

namespace PageProgram

variable {α : Type}

/-! ## Programs that read -/

@[grind ←] theorem reads_getPage (pageId : PageId) : (getPage pageId).Only PageCall.Reads := by
  refine ⟨trivial, fun r => ?_⟩
  rcases r with _ | _ | _ <;> trivial

@[grind ←] theorem reads_read (handle : Nat) : (read handle).Only PageCall.Reads := by
  refine ⟨trivial, fun r => ?_⟩
  rcases r with _ | _ | _ <;> trivial

@[grind ←] theorem reads_release (handle : Nat) : (release handle).Only PageCall.Reads :=
  ⟨trivial, fun _ => trivial⟩

@[grind ←] theorem reads_withPage {pageId : PageId} {body : PageData → PageProgram α}
    (h : ∀ data, (body data).Only PageCall.Reads) : (withPage pageId body).Only PageCall.Reads := by
  unfold withPage withHandle
  grind

/-- What only reads writes to no file. -/
@[grind ←] theorem keepsStore_of_reads {x : PageProgram α} (h : x.Only PageCall.Reads) :
    x.Only PageCall.KeepsStore := h.mono fun _ => PageCall.Reads.keepsStore

/-! ## Programs that write to pages -/

@[grind ←] theorem only_newPage : newPage.Only PageCall.KeepsStore := by
  refine ⟨trivial, fun r => ?_⟩
  rcases r with _ | _ | _ <;> trivial

@[grind ←] theorem only_mutablePage (handle : Nat) :
    (mutablePage handle).Only PageCall.KeepsStore := ⟨trivial, fun _ => trivial⟩

@[grind ←] theorem only_store (handle : Nat) (data : PageData) :
    (store handle data).Only PageCall.KeepsStore := ⟨trivial, fun _ => trivial⟩

@[grind ←] theorem only_withHandle {acquire : PageProgram Page} {body : Page → PageProgram α}
    (hacquire : acquire.Only PageCall.KeepsStore)
    (hbody : ∀ page, (body page).Only PageCall.KeepsStore) :
    (withHandle acquire body).Only PageCall.KeepsStore := by
  unfold withHandle
  grind

@[grind ←] theorem only_withPage {pageId : PageId} {body : PageData → PageProgram α}
    (h : ∀ data, (body data).Only PageCall.KeepsStore) :
    (withPage pageId body).Only PageCall.KeepsStore := by
  unfold withPage
  grind

@[grind ←] theorem only_withMutablePage {pageId : PageId} {body : PageData → PageProgram α}
    (h : ∀ data, (body data).Only PageCall.KeepsStore) :
    (withMutablePage pageId body).Only PageCall.KeepsStore := by
  unfold withMutablePage
  grind

@[grind ←] theorem only_withNewPage {body : PageId → PageProgram α}
    (h : ∀ pageId, (body pageId).Only PageCall.KeepsStore) :
    (withNewPage body).Only PageCall.KeepsStore := by
  unfold withNewPage
  grind

@[grind ←] theorem only_edit (handle : Nat) (change : PageData → Result PageData) :
    (edit handle change).Only PageCall.KeepsStore := by
  unfold edit
  grind

end PageProgram

namespace FlatSession

variable {s s' : FlatSession} {c : PageCall} {r : Reply}

/-- A call that only reads leaves the pages as they are. -/
theorem flat_of_reads (h : c.Reads) (hcall : s.call c = some (r, s')) : s'.flat = s.flat := by
  obtain ⟨c, hquiet⟩ := c
  cases c with
  | getPage pageId =>
    rw [call] at hcall
    have hget : (FlatPager.getPage pageId).Yields s.flat fun _ flat => flat = s.flat :=
      Proc.yields_get_bind (Proc.yields_failIf_bind (fun _ => rfl) fun _ => by
        split
        · exact Proc.yields_pure rfl
        · exact Proc.yields_fail rfl)
    unfold Proc.Yields at hget
    rcases hrun : (FlatPager.getPage pageId).run s.flat with ⟨e | data, flat⟩ <;>
      rw [hrun] at hget hcall <;> cases hcall <;> exact hget
  | read handle =>
    obtain ⟨pin, -, heq⟩ := Option.map_eq_some_iff.mp hcall
    cases heq
    rfl
  | release handle =>
    obtain ⟨pin, -, heq⟩ := Option.map_eq_some_iff.mp hcall
    cases heq
    rfl
  | _ => exact h.elim

end FlatSession

namespace Session

variable {α : Type} {s s' : Session} {x : PageProgram α} {trace : List (PageCall × Reply)}
  {r : Except Status α} {ledger : Ledger}

/-- The ledger goes on as it was. -/
theorem Recorded.run_keepsStore (h : ∃ log, s.Recorded ledger log)
    (hx : x.Only PageCall.KeepsStore) (hrun : x.run machine s = some (trace, r, s')) :
    ∃ log, s'.Recorded ledger log := by
  have hstep : ∀ (t : Session) (c : PageCall) (r : Reply) (t' : Session), c.KeepsStore →
      t.machine c = some (r, t') → (∃ log, t.Recorded ledger log) →
        ∃ log, t'.Recorded ledger log := by
    rintro t c r t' hkeeps hcall ⟨log, hrecorded⟩
    obtain ⟨log', hrecorded'⟩ := hrecorded.step c.2 hcall
    rw [record_keepsStore hkeeps] at hrecorded'
    exact ⟨log', hrecorded'⟩
  exact hx.run hstep hrun h

/-- A program that only reads leaves the pages as they are. -/
theorem flat_of_reads {flat : FlatPager} (h : s.Sound ∧ s.NoFaults ∧ s.abs.flat = flat)
    (hx : x.Only PageCall.Reads) (hrun : x.run machine s = some (trace, r, s')) :
    s'.abs.flat = flat := by
  have hstep : ∀ (t : Session) (c : PageCall) (r : Reply) (t' : Session), c.Reads →
      t.machine c = some (r, t') → (t.Sound ∧ t.NoFaults ∧ t.abs.flat = flat) →
        t'.Sound ∧ t'.NoFaults ∧ t'.abs.flat = flat := by
    rintro t c r t' hreads hcall ⟨hsound, hno, rfl⟩
    refine ⟨(hsound.step hcall).1, hsound.noFaults hno c.2 hcall, ?_⟩
    obtain ⟨-, hanswer | ⟨_, -, habs, -⟩ | ⟨_, _, -, -, hfaults, -⟩⟩ := hsound.step hcall
    · exact FlatSession.flat_of_reads hreads hanswer
    · rw [habs]
    · exact absurd hno.2 hfaults
  exact (hx.run hstep hrun h).2.2

end Session

end DanDB.Storage
