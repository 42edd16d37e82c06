import DanDB.Storage.Overflow

/-!
# The pool cannot be seen

Whatever a pool has room for, a session shows the pages of a flat array, as long as
no page has more handles than a frame can count.
-/

namespace DanDB.Storage.Session

open DanDB.Core BufferPool

variable {s : Session} {trace : List (Call × Reply)}

/-- The pool of a pager cannot be seen: as long as the files answer, a session
is a run of the flat array of pages, and two sessions on the same pages that
make the same calls get the same answers, unless a pool is exhausted. -/
theorem pool_invisible {view : PageArray} {pager : Pager} (hstart : Starts view pager)
    (hrun : Runs Step (start pager) trace s) (hquiet : ∀ entry ∈ trace, entry.1.Quiet) :
    Runs FlatSession.Step ⟨.settled view, []⟩ trace s.abs ∧
      ∀ pager' trace' s', Starts view pager' → Runs Step (start pager') trace' s' →
        (∀ entry ∈ trace', entry.1.Quiet) →
        List.Forall₂ (fun entry entry' => entry.1.Same entry'.1) trace trace' →
        NeverExhausted trace → NeverExhausted trace' →
        List.Forall₂ (fun entry entry' => entry.2.Agrees entry'.2) trace trace' ∧
          s.abs = s'.abs := by
  obtain ⟨hsound, hno, habs⟩ := hstart.sound
  obtain ⟨hflat, -, -⟩ := flat_runs hrun hsound hno hquiet
  rw [habs] at hflat
  refine ⟨hflat, fun pager' trace' s' hstart' hrun' hquiet' hsame hfits hfits' => ?_⟩
  obtain ⟨hsound', hno', habs'⟩ := hstart'.sound
  obtain ⟨hflat', -, -⟩ := flat_runs hrun' hsound' hno' hquiet'
  rw [habs'] at hflat'
  exact FlatSession.runs_agree hflat hflat' hsame hfits hfits'

theorem forall₂_same (trace : List (Call × Reply)) :
    List.Forall₂ (fun entry entry' => entry.1.Same entry'.1) trace trace := by
  refine List.forall₂_same.mpr fun entry _ => ?_
  cases entry.1 <;> first | exact trivial | exact rfl

/-- Two pages are written and read in pools of one and of two frames.  The smaller
one has to read the first page again. -/
theorem pool_invisible_small : ∃ pager pager' trace s s',
    pager.frameCount = 1 ∧ pager'.frameCount = 2 ∧ Runs Step (start pager) trace s ∧
    Runs Step (start pager') trace s' ∧
    Runs FlatSession.Step ⟨.settled (Pager.emptyView 7), []⟩ trace s.abs ∧
    (List.Forall₂ (fun entry entry' => entry.2.Agrees entry'.2) trace trace ∧ s.abs = s'.abs) ∧
    trace.getLast? = some (.getPage 1, .ok (some ⟨1, filled 1⟩)) := by
  obtain ⟨pager, s, hcreate, hs⟩ := exists_played 1 (by decide) (by decide)
    (show FlatSession.play 1 _ [.beginTransaction, .newPage, .store 0 (filled 1), .release 0,
      .commitTransaction .insertion, .beginTransaction, .newPage, .release 0,
      .commitTransaction .insertion, .getPage 1] = some (_, _) from rfl)
  obtain ⟨pager', s', hcreate', hs'⟩ := exists_played 2 (by decide) (by decide)
    (show FlatSession.play 2 _ [.beginTransaction, .newPage, .store 0 (filled 1), .release 0,
      .commitTransaction .insertion, .beginTransaction, .newPage, .release 0,
      .commitTransaction .insertion, .getPage 1] = some (_, _) from rfl)
  obtain ⟨hflat, hagree⟩ := pool_invisible (.create hcreate) hs.runs hs.quiet
  have hagrees := hagree pager' _ s' (.create hcreate') hs'.runs hs'.quiet (forall₂_same _)
    (fun entry hmem => by fin_cases hmem <;> rintro ⟨⟩)
    (fun entry hmem => by fin_cases hmem <;> rintro ⟨⟩)
  exact ⟨pager, pager', _, s, s', Pager.frameCount_of_createEmpty hcreate,
    Pager.frameCount_of_createEmpty hcreate', hs.runs, hs'.runs, hflat, hagrees, rfl⟩

/-- With 2^32 handles on a page, what is read of it can be older than what was
written. -/
theorem pool_visible : ∃ pager trace s, Starts (Pager.emptyView 7) pager ∧
    Runs Responds (start pager) trace s ∧ (∀ entry ∈ trace, entry.1.Quiet) ∧
    NeverExhausted trace ∧
    ∀ t, ¬Runs FlatSession.Step ⟨.settled (Pager.emptyView 7), []⟩ trace t := by
  obtain ⟨pager, trace, s, t, h⟩ := exists_lost (filled 1)
  obtain ⟨s', hshows⟩ := h.shows
  obtain ⟨t', hflat⟩ := h.flatShows
  refine ⟨pager, trace ++ [(.getPage 1, .ok (some ⟨1, .zero⟩))], s', .create h.create,
    h.runs.append (.cons hshows (.nil s')), fun entry hmem => ?_, fun entry hmem => ?_,
    fun u hrun => ?_⟩
  · obtain hmem | hmem := List.mem_append.mp hmem
    · exact h.quiet entry hmem
    · rw [List.mem_singleton.mp hmem]
      trivial
  · obtain hmem | hmem := List.mem_append.mp hmem
    · exact h.fits entry hmem
    · rw [List.mem_singleton.mp hmem]
      rintro ⟨⟩
  · obtain ⟨v, hrun, hlast⟩ := hrun.split
    obtain ⟨-, rfl⟩ := FlatSession.runs_agree hrun h.flat (forall₂_same trace) h.fits h.fits
    obtain _ | ⟨hstep, -⟩ := hlast
    cases hstep with
    | answer hcall =>
      obtain ⟨hr, -⟩ := Prod.mk.inj (Option.some.inj (hcall.symm.trans hflat))
      have hdata := congrArg Page.data (Option.some.inj (Except.ok.inj hr))
      exact absurd (congrArg (fun data : PageData => data.bytes.head?) hdata) (by decide)

end DanDB.Storage.Session
