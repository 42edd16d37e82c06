import DanDB.BTree.Forests

/-!
# Steps of a store of trees

What a session does is a step of the abstract store, as long as the program makes the
calls that the store allows.
-/

namespace DanDB.BTree

open DanDB.Core Storage PageProgram Platform Wal BufferPool

variable {s s' : Session} {m : Store} {ledger : Ledger}

/-! ## Calls on trees -/

section Trees

variable {layout : Layout} {height : Nat} {t : Subtree layout height} {array : PageArray}
  {spare : Nat} {ctx : PageContext (spare + 3)} {tree : BTree}

theorem contents_eq_some {entries : List (layout.Entry .leaf)} (h : Entries.Sorted entries)
    {key value : List Byte} : contents entries key = some value ↔
      ∃ entry ∈ entries, toEntry entry = ⟨key, value⟩ := by
  constructor
  · intro hcontents
    have hsize : key.length = layout.keySize := by
      by_contra hsize
      rw [contents, dif_neg hsize] at hcontents
      cases hcontents
    rw [contents, dif_pos hsize] at hcontents
    obtain ⟨found, hlookup, rfl⟩ := Option.map_eq_some_iff.mp hcontents
    exact ⟨(⟨key, hsize⟩, found), h.lookup_eq_some.mp hlookup, rfl⟩
  · rintro ⟨⟨key', value'⟩, hmem, heq⟩
    cases heq
    rw [contents_bytes, h.lookup_eq_some.mpr hmem]
    rfl

theorem rangeOf_inRange (h : Entries.Sorted t.entries) (lower upper : Option layout.Key) :
    RangeOf (contents t.entries) (lower.map Bytes.bytes) (upper.map Bytes.bytes)
      ((inRange lower upper t.entries).map toEntry) where
  sorted := List.pairwise_map.mpr ((List.Pairwise.sublist List.filter_sublist h).imp fun hlt =>
    Bytes.memcmp_eq_lt.mpr hlt)
  mem_iff entry := by
    obtain ⟨key, value⟩ := entry
    rw [contents_eq_some h, List.mem_map]
    constructor
    · rintro ⟨entry, hmem, heq⟩
      obtain ⟨hmem, hin⟩ := List.mem_filter.mp hmem
      obtain ⟨hlower, hupper⟩ := of_decide_eq_true hin
      cases heq
      refine ⟨⟨entry, hmem, rfl⟩, ?_, ?_⟩
      · intro bound hbound
        obtain ⟨key, hkey, rfl⟩ := Option.map_eq_some_iff.mp hbound
        exact Bytes.memcmp_ne_gt.mpr (hlower key hkey)
      · intro bound hbound
        obtain ⟨key, hkey, rfl⟩ := Option.map_eq_some_iff.mp hbound
        exact Bytes.memcmp_eq_lt.mpr (hupper key hkey)
    · rintro ⟨⟨entry, hmem, heq⟩, hlower, hupper⟩
      cases heq
      refine ⟨entry, List.mem_filter.mpr ⟨hmem, decide_eq_true ⟨?_, ?_⟩⟩, rfl⟩
      · intro bound hbound
        exact Bytes.memcmp_ne_gt.mp (hlower _ (Option.mem_map_of_mem _ hbound))
      · intro bound hbound
        exact Bytes.memcmp_eq_lt.mp (hupper _ (Option.mem_map_of_mem _ hbound))

/-- A bound of the right size is a key. -/
theorem exists_keys {bound : Option (List Byte)} (h : ¬∃ bytes ∈ bound, bytes.length ≠ layout.keySize) :
    ∃ key : Option layout.Key, key.map Bytes.bytes = bound := by
  cases bound with
  | none => exact ⟨none, rfl⟩
  | some bytes =>
    have hsize : bytes.length = layout.keySize := not_not.mp fun hne => h ⟨bytes, rfl, hne⟩
    exact ⟨some ⟨bytes, hsize⟩, rfl⟩

namespace WellFormed

variable (h : WellFormed array tree t)

include h

/-- What a scan answers. -/
theorem yields_scan (lowerBound upperBound : Option (List Byte)) :
    Yields ctx ((StoreCall.scan tree lowerBound upperBound).program) array fun r array' =>
      array' = array ∧ match checkBounds tree.keySize lowerBound upperBound with
        | .error status => r = .error status
        | .ok () => ∃ entries, r = .ok (.entries entries) ∧
          RangeOf (contents t.entries) lowerBound upperBound entries := by
  by_cases hlower : ∃ bound ∈ lowerBound, bound.length ≠ tree.keySize
  · rw [checkBounds, failIf_of hlower, StoreCall.program]
    unfold scanRange
    rw [Program.bind_assoc]
    exact yields_failIf_bind (fun _ => ⟨rfl, rfl⟩) fun hnot => absurd hlower hnot
  by_cases hupper : ∃ bound ∈ upperBound, bound.length ≠ tree.keySize
  · rw [checkBounds, failIf_of_not hlower, ok_bind, failIf_of hupper, StoreCall.program]
    unfold scanRange
    rw [Program.bind_assoc]
    refine yields_failIf_bind (fun hnot => absurd hnot hlower) fun _ => ?_
    rw [Program.bind_assoc]
    exact yields_failIf_bind (fun _ => ⟨rfl, rfl⟩) fun hnot => absurd hupper hnot
  rw [checkBounds, failIf_of_not hlower, ok_bind, failIf_of_not hupper]
  rw [h.hasLayout.keySize] at hlower hupper
  obtain ⟨lower, rfl⟩ := exists_keys hlower
  obtain ⟨upper, rfl⟩ := exists_keys hupper
  refine (h.runs_scanRange lower upper).bind ?_
  rintro cursor array' ⟨rfl, hahead⟩
  refine (h.runs_drain hahead).bind ?_
  rintro entries array' ⟨rfl, rfl⟩
  exact yields_pure ⟨rfl, _, rfl, rangeOf_inRange h.sorted lower upper⟩

/-- What a call on a tree answers, and what it makes of the tree. -/
theorem yields_onTree (hadmits : layout.Admits .internal) {call : TreeCall}
    (hchanges : (StoreCall.onTree tree call).Changes → ctx.status = .active) :
    Yields ctx (StoreCall.onTree tree call).program array fun r array' =>
      ∃ answer : TreeAnswer, r = answer.map .value ∧ CallEnds array tree t call answer array' := by
  have hyields : Yields ctx (call.program tree) array (CallEnds array tree t call) := by
    cases call with
    | find key => exact h.yields_findCall key
    | insert key value => exact h.yields_call (hchanges trivial) hadmits _
    | updateValue key value => exact h.yields_call (hchanges trivial) hadmits _
    | erase key => exact h.yields_call (hchanges trivial) hadmits _
  refine hyields.bind ?_ ?_
  · intro value array' hcall
    exact yields_pure ⟨.ok value, rfl, hcall⟩
  · intro status array' hcall
    exact ⟨.error status, rfl, hcall⟩

end WellFormed

/-- The store answers, and the pages hold the trees as it has them then. -/
def Store.Ends (m : Store) (c : StoreCall) (answer : Except Status StoreValue) (array : PageArray) :
    Prop :=
  ∃ working, (∀ walSize, m.Answers (.call c) answer walSize ⟨m.versions, working, m.status⟩) ∧
    ∀ d ∈ working, HoldsTrees array d

namespace Store

theorem yields_createNew (hactive : m.status = .active) {d : Database} (hworking : m.working = some d)
    (hforest : HoldsTrees array d) (keySize valueSize : Nat) :
    Yields (.top m.status) (StoreCall.createNew keySize valueSize).program array
      (m.Ends (.createNew keySize valueSize)) := by
  obtain ⟨pages, hforest⟩ := hforest
  cases hvalid : validateLayout keySize valueSize with
  | error status =>
    refine (yields_createNew_error hvalid).bind ?_ ?_
    · rintro tree array' ⟨hr, -⟩
      cases hr
    · rintro _ array' ⟨⟨⟩, rfl⟩
      refine ⟨m.working, fun _ => .rejects hvalid, ?_⟩
      rintro _ hmem
      cases hworking.symm.trans hmem
      exact ⟨pages, hforest⟩
  | ok _ =>
    obtain ⟨layout, haccepts⟩ := exists_accepts hvalid
    refine (runs_createNew hactive hforest.pos hvalid haccepts).bind ?_
    rintro tree array' ⟨⟨hkey, hvalue⟩, hcreated⟩
    obtain ⟨hnew, hforest'⟩ := hforest.created haccepts.admitsInternal hcreated
    refine yields_pure ⟨_, fun _ => .creates hworking hvalid hkey hvalue hnew, ?_⟩
    rintro _ ⟨⟩
    exact hforest'

variable {d : Database} {pages : BTree → List PageId}

theorem yields_openExisting (hworking : m.working = some d) (hforest : Forest array d pages)
    (htree : d tree ≠ none) (keySize valueSize : Nat) :
    Yields ctx (StoreCall.openExisting tree.rootPageId keySize valueSize).program array
      (m.Ends (.openExisting tree.rootPageId keySize valueSize)) := by
  obtain ⟨map, hmap⟩ := Option.ne_none_iff_exists'.mp htree
  obtain ⟨layout, height, t, hwell, -⟩ := hforest.stands tree map hmap
  have hends : m.Ends (.openExisting tree.rootPageId keySize valueSize)
      ((openedAs tree keySize valueSize).map .tree) array := by
    refine ⟨m.working, fun _ => .opens hworking htree, ?_⟩
    rintro _ hmem
    cases hworking.symm.trans hmem
    exact ⟨pages, hforest⟩
  refine (hwell.yields_openExisting keySize valueSize).bind ?_ ?_
  · rintro tree' array' ⟨hr, rfl⟩
    rw [← hr] at hends
    exact yields_pure hends
  · rintro status array' ⟨hr, rfl⟩
    rw [← hr] at hends
    exact hends

theorem yields_onTree (hworking : m.working = some d) (hforest : Forest array d pages)
    (htree : d tree ≠ none) {call : TreeCall}
    (hchanges : (StoreCall.onTree tree call).Changes → ctx.status = .active) :
    Yields ctx (StoreCall.onTree tree call).program array (m.Ends (.onTree tree call)) := by
  obtain ⟨map, hmap⟩ := Option.ne_none_iff_exists'.mp htree
  obtain ⟨layout, height, t, hwell, hadmits, rfl, hpages⟩ := hforest.stands tree map hmap
  refine (hwell.yields_onTree hadmits hchanges).mono ?_
  rintro _ array' ⟨_, rfl, rfl, entries, hbecomes, hcontents⟩
  have hforest' := hforest.becomes hmap hpages hadmits hbecomes
  rw [hcontents, ← hwell.hasLayout.keySize, ← hwell.hasLayout.valueSize] at hforest'
  rw [← hwell.hasLayout.keySize, ← hwell.hasLayout.valueSize]
  refine ⟨_, fun _ => .onTree hworking hmap, ?_⟩
  rintro _ ⟨⟩
  exact hforest'

theorem yields_scan (hworking : m.working = some d) (hforest : Forest array d pages)
    (htree : d tree ≠ none) (lowerBound upperBound : Option (List Byte)) :
    Yields ctx (StoreCall.scan tree lowerBound upperBound).program array
      (m.Ends (.scan tree lowerBound upperBound)) := by
  obtain ⟨map, hmap⟩ := Option.ne_none_iff_exists'.mp htree
  obtain ⟨layout, height, t, hwell, -, rfl, -⟩ := hforest.stands tree map hmap
  refine (hwell.yields_scan lowerBound upperBound).mono ?_
  rintro r array' ⟨rfl, hr⟩
  have hforests : ∀ d ∈ m.working, HoldsTrees array' d := by
    rintro _ hmem
    cases hworking.symm.trans hmem
    exact ⟨pages, hforest⟩
  cases hbounds : checkBounds tree.keySize lowerBound upperBound with
  | error status =>
    rw [hbounds] at hr
    subst hr
    exact ⟨m.working, fun _ => .rejectsBounds hbounds, hforests⟩
  | ok _ =>
    rw [hbounds] at hr
    obtain ⟨entries, rfl, hrange⟩ := hr
    exact ⟨m.working, fun _ => .scans hworking hmap hbounds hrange, hforests⟩

end Store

end Trees

/-! ## Steps -/

/-- The calls that are programs on trees. -/
def StoreCall.OnPages : StoreCall → Prop
  | createNew _ _ => True
  | openExisting _ _ _ => True
  | onTree _ _ => True
  | scan _ _ _ => True
  | _ => False

theorem StoreCall.only_program {c : StoreCall} (hpages : c.OnPages) :
    c.program.Only PageCall.KeepsStore := by
  cases c with
  | createNew keySize valueSize => exact (only_createNew ..).bind fun _ => Program.only_pure _
  | openExisting rootPageId keySize valueSize =>
    exact (keepsStore_of_reads (reads_openExisting ..)).bind fun _ => Program.only_pure _
  | onTree tree call => exact (TreeCall.only_program call).bind fun _ => Program.only_pure _
  | scan tree lowerBound upperBound =>
    exact (keepsStore_of_reads (reads_scanRange ..)).bind fun _ =>
      (keepsStore_of_reads (reads_drain _)).bind fun _ => Program.only_pure _
  | _ => exact hpages.elim

theorem StoreCall.reads_program {c : StoreCall} (hpages : c.OnPages) (hchanges : ¬c.Changes) :
    c.program.Only PageCall.Reads := by
  cases c with
  | createNew keySize valueSize => exact absurd trivial hchanges
  | openExisting rootPageId keySize valueSize =>
    exact (reads_openExisting ..).bind fun _ => Program.only_pure _
  | onTree tree call =>
    cases call with
    | find key => exact ((reads_find key).bind fun _ => Program.only_pure _).bind fun _ =>
      Program.only_pure _
    | _ => exact absurd trivial hchanges
  | scan tree lowerBound upperBound =>
    exact (reads_scanRange ..).bind fun _ => (reads_drain _).bind fun _ => Program.only_pure _
  | _ => exact hpages.elim

section Steps

variable (h : Tracks HoldsTrees s m ledger)

include h

theorem Store.yields_program {c : StoreCall} (hallows : m.Allows (.call c)) (hpages : c.OnPages) :
    Yields (.top m.status) c.program s.abs.flat.active (m.Ends c) := by
  cases c with
  | createNew keySize valueSize =>
    obtain ⟨hactive, hworking⟩ := hallows
    obtain ⟨d, hworking⟩ := Option.ne_none_iff_exists'.mp hworking
    exact Store.yields_createNew hactive hworking (h.working d hworking) keySize valueSize
  | openExisting rootPageId keySize valueSize =>
    obtain ⟨d, hworking, tree, htree, rfl⟩ := hallows
    obtain ⟨pages, hforest⟩ := h.working d hworking
    exact Store.yields_openExisting hworking hforest htree keySize valueSize
  | onTree tree call =>
    obtain ⟨⟨d, hworking, htree⟩, hchanges⟩ := hallows
    obtain ⟨pages, hforest⟩ := h.working d hworking
    exact Store.yields_onTree hworking hforest htree hchanges
  | scan tree lowerBound upperBound =>
    obtain ⟨d, hworking, htree⟩ := hallows
    obtain ⟨pages, hforest⟩ := h.working d hworking
    exact Store.yields_scan hworking hforest htree lowerBound upperBound
  | _ => exact hpages.elim

/-- A program on trees. -/
theorem Store.step_onPages {c : StoreCall} (hallows : m.Allows (.call c)) (hpages : c.OnPages)
    {calls : List (PageCall × Reply)} {answer : Except Status StoreValue}
    (hrun : c.program.run Session.machine s = some (calls, answer, s')) :
    ∃ m' ledger', m.Step (.call c) ⟨answer, TurnedDown s calls, s'.walSize⟩ m' ∧
      Tracks HoldsTrees s' m' ledger' := by
  obtain ⟨hend, htracks⟩ := h.run (StoreCall.only_program hpages) (Store.yields_program h hallows hpages) hrun
  obtain ⟨working, hanswers, hforests⟩ | ⟨hdown, status, rfl⟩ := hend
  · exact ⟨_, ledger, .answers (hanswers _), htracks working hforests⟩
  by_cases hchanges : c.Changes
  · exact ⟨_, ledger, .turnsDown hdown rfl hchanges, htracks none nofun⟩
  · have hflat := Session.flat_of_reads ⟨h.sound, h.noFaults, rfl⟩
      (StoreCall.reads_program hpages hchanges) hrun
    refine ⟨m, ledger, .turnsDownReading hdown rfl hchanges, htracks m.working fun d hworking => ?_⟩
    rw [hflat]
    exact h.working d hworking

theorem Store.step_call {c : StoreCall} (hallows : m.Allows (.call c)) {calls : List (PageCall × Reply)}
    {answer : Except Status StoreValue}
    (hrun : c.program.run Session.machine s = some (calls, answer, s')) :
    ∃ m' ledger', m.Step (.call c) ⟨answer, TurnedDown s calls, s'.walSize⟩ m' ∧
      Tracks HoldsTrees s' m' ledger' := by
  cases c with
  | transaction call =>
    obtain ⟨reply, hcall, rfl, rfl⟩ := TransactionCall.run_program_bind hrun
    obtain ⟨m', ledger', hanswers, htracks⟩ | ⟨hturns, ⟨status, rfl⟩, htracks⟩ :=
      h.transaction (fun _ hc => by cases hc; exact hallows) hcall
    · exact ⟨m', ledger', .answers (.transaction hanswers), htracks⟩
    · exact ⟨m, ledger, .turnsDownReading (.inl hturns) rfl id, htracks⟩
  | _ => exact Store.step_onPages h hallows trivial hrun

/-- A step of the session is a step of the store. -/
theorem Store.exists_step {e : StoreEvent} {o : Outcome} (hallows : m.Allows e) (hstep : StoreStep s e o s') :
    ∃ m' ledger', m.Step e o m' ∧
      Tracks HoldsTrees s' m' ledger' := by
  cases hstep with
  | call hrun => exact Store.step_call h hallows hrun
  | crash hsize hmax hopen =>
    obtain ⟨pager, hopen', m', ledger', hcrashes, htracks⟩ :=
      h.open_crash hsize hmax _ _ (Session.capacity_pos_of_open hopen)
    rw [hopen] at hopen'
    cases hopen'
    exact ⟨m', ledger', .answers (.crashes hcrashes), htracks⟩

/-- A call that the store allows ends. -/
theorem Store.exists_step_call {c : StoreCall} (hallows : m.Allows (.call c)) :
    ∃ o s', StoreStep s (.call c) o s' := by
  have hpages (hpages : c.OnPages) : ∃ o s', StoreStep s (.call c) o s' := by
    obtain ⟨calls, answer, s', hrun⟩ := h.exists_run (Store.yields_program h hallows hpages)
    exact ⟨_, s', .call hrun⟩
  cases c with
  | transaction call =>
    obtain ⟨calls, answer, s', hrun⟩ :=
      TransactionCall.exists_run_program_bind s call StoreValue.done
    exact ⟨_, s', .call hrun⟩
  | _ => exact hpages trivial

end Steps

/-! ## The start -/

/-- A new database has no trees. -/
theorem holdsTrees_empty (databaseId : UInt64) : HoldsTrees (Pager.emptyView databaseId) .empty :=
  ⟨_, .empty (show (0 : UInt64) < 1 by decide)⟩

end DanDB.BTree
