import DanDB.BTree.TreeStoreSteps

/-!
# Runs of a store of trees

What a program can rely on that keeps trees in a new database: each answer is that of
the abstract store, whatever the program does, and however often the files are opened
again after a crash.
-/

namespace DanDB.BTree

open DanDB.Core Storage PageProgram Platform Wal BufferPool

variable {s s' : Session} {m m' : Store} {ledger : Ledger} {e : StoreEvent} {o : Outcome}

/-! ## Events and the versions -/

/-- An event that commits nothing and does not lose the session. -/
def StoreEvent.Transient : StoreEvent → Prop
  | .call c => ∀ transaction, c = .transaction transaction → transaction.Transient
  | .crash .. => False

theorem ok_of_map_done {answer : Except Status Unit}
    (h : (answer.map fun _ => StoreValue.done) = .ok .done) : answer = .ok () := by
  cases answer with
  | error status => cases h
  | ok _ => rfl

namespace Store

/-- The store allows each event, whatever state what came before has led to. -/
def AllowsAll (m : Store) : List (StoreEvent × Outcome) → Prop
  | [] => True
  | (e, o) :: trace => m.Allows e ∧ ∀ m', m.Step e o m' → m'.AllowsAll trace

/-- What is not a commit or a checkpoint leaves the versions alone. -/
theorem Step.versions (h : m.Step e o m') (htransient : e.Transient) :
    m'.versions = m.versions := by
  cases h with
  | answers h =>
    generalize o.answer = answer, o.walSize = walSize at h
    cases h with
    | transaction h => exact h.versions (htransient _ rfl)
    | crashes h => exact htransient.elim
    | _ => rfl
  | turnsDown hdown herror hchanges => rfl
  | turnsDownReading hdown herror hchanges => rfl

/-- A call that succeeds was not turned down. -/
theorem Step.transaction {call : TransactionCall} (h : m.Step (.call (.transaction call)) o m')
    (hok : o.answer = .ok .done) : VersionStore.Answers m call (.ok ()) o.walSize m' := by
  cases h with
  | answers h =>
    generalize hanswer : o.answer = answer at h
    cases h with
    | transaction h =>
      obtain rfl := ok_of_map_done (hanswer.symm.trans hok)
      exact h
  | turnsDown hdown herror hchanges => rw [hok] at herror; cases herror
  | turnsDownReading hdown herror hchanges => rw [hok] at herror; cases herror

/-- A crash is not turned down. -/
theorem Step.crashes {size : Nat} {order : IterationOrder PageId} {path : String} {capacity : Nat}
    (h : m.Step (.crash size order path capacity) o m') : m.Crashes size m' := by
  cases h with
  | answers h =>
    generalize o.answer = answer, o.walSize = walSize at h
    cases h with
    | crashes h => exact h

/-- The store after a call that succeeds. -/
def after (m : Store) (walSize : Nat) : StoreCall → StoreValue → Store
  | .transaction .beginTransaction, _ => { m with status := .active }
  | .transaction (.commitTransaction _), _ =>
    ⟨m.versions ++ (m.working.map fun d => (walSize, d)).toList, m.working, .inactive⟩
  | .transaction (.rollbackTransaction _), _ => ⟨m.versions, m.committed, .inactive⟩
  | .transaction .markTransactionFailed, _ => { m with status := .failed }
  | .transaction (.checkpoint _), _ =>
    { m with versions := (m.committed.map fun d => (walSize, d)).toList }
  | .createNew _ _, .tree tree =>
    { m with working := m.working.map fun d => Function.update d tree (some fun _ => none) }
  | .onTree tree call, _ =>
    ⟨m.versions, m.working.map fun d => Function.update d tree
      ((d tree).map fun map => (call.onMap tree.keySize tree.valueSize map).2), m.status⟩
  | _, _ => m

theorem answers_after {c : TransactionCall} {walSize : Nat} {value : StoreValue}
    (h : VersionStore.Answers m c (.ok ()) walSize m') :
    m' = m.after walSize (.transaction c) value := by
  cases h with
  | commits hstatus hworking => rw [after, hworking]; rfl
  | rollsBack hstatus hcommitted => rw [after, hcommitted]
  | checkpoints hcommitted => rw [after, hcommitted]; rfl
  | _ => rfl

/-- A call that succeeds leaves one store only. -/
theorem Step.eq_after {c : StoreCall} {value : StoreValue} (h : m.Step (.call c) o m')
    (hok : o.answer = .ok value) : m' = m.after o.walSize c value := by
  cases h with
  | answers h =>
    generalize hanswer : o.answer = answer, o.walSize = walSize at h
    cases h with
    | transaction h =>
      rename_i transactionAnswer
      cases transactionAnswer with
      | error status =>
        rw [hok] at hanswer
        cases hanswer
      | ok _ => exact answers_after h
    | creates hworking hvalid hkey hvalue hnew =>
      obtain rfl := Except.ok.inj (hok.symm.trans hanswer)
      rw [after, hworking]
      rfl
    | onTree hworking hmap =>
      rw [after, hworking, Option.map_some, hmap]
      rfl
    | rejects hvalid =>
      rw [hok] at hanswer
      cases hanswer
    | _ => rfl
  | turnsDown hdown herror hchanges =>
    rw [hok] at herror
    cases herror
  | turnsDownReading hdown herror hchanges =>
    rw [hok] at herror
    cases herror

/-- Calls that succeed, each of which the store allows. -/
inductive Follows : Store → List (StoreEvent × Outcome) → Store → Prop
  | nil (m : Store) : Follows m [] m
  | cons {m m' : Store} {c : StoreCall} {o : Outcome} {value : StoreValue}
    {trace : List (StoreEvent × Outcome)} (hallows : m.Allows (.call c)) (hok : o.answer = .ok value)
    (hrest : Follows (m.after o.walSize c value) trace m') : Follows m ((.call c, o) :: trace) m'

variable {trace : List (StoreEvent × Outcome)}

theorem Follows.append {trace' : List (StoreEvent × Outcome)} {m'' : Store} (h : Follows m trace m')
    (h' : Follows m' trace' m'') : Follows m (trace ++ trace') m'' := by
  induction h with
  | nil m => exact h'
  | cons hallows hok _ ih => exact .cons hallows hok (ih h')

/-- A run that follows the store is allowed. -/
theorem Follows.allowsAll (h : Follows m trace m') : m.AllowsAll trace := by
  induction h with
  | nil m => trivial
  | cons hallows hok _ ih =>
    refine ⟨hallows, fun m₁ hstep => ?_⟩
    rw [hstep.eq_after hok]
    exact ih

/-- The store allows the calls one after the other, if they succeed with the values, and is
as `post` says then, however long the log is. -/
def Plays (m : Store) : List (StoreCall × StoreValue) → (Store → Prop) → Prop
  | [], post => post m
  | (c, value) :: script, post =>
    m.Allows (.call c) ∧ ∀ walSize, (m.after walSize c value).Plays script post

end Store

/-! ## Runs that are computed -/

/-- The flat array after the calls, if it answers each of them with the value. -/
def playScript (frameCount : Nat) (s : FlatSession) : List (StoreCall × StoreValue) → Option FlatSession
  | [] => some s
  | (c, value) :: script => do
    let (_, answer, s') ← c.program.run (FlatSession.machine frameCount) s
    if answer.toOption = some value then playScript frameCount s' script else none

end DanDB.BTree

namespace DanDB

open BTree hiding Runs
open DanDB.Core Storage PageProgram Platform Wal BufferPool

variable {s s' : Session} {m m' : Store} {ledger : Ledger} {trace : List (StoreEvent × Outcome)}

/-! ## Runs -/

/-- Each step of a session is a step of the store, so a run is one. -/
theorem exists_tracks (hrun : Runs StoreStep s trace s') (hallows : m.AllowsAll trace)
    (h : Tracks HoldsTrees s m ledger) :
    ∃ m' ledger', Runs Store.Step m trace m' ∧ Tracks HoldsTrees s' m' ledger' := by
  induction hrun generalizing m ledger with
  | nil => exact ⟨m, ledger, .nil m, h⟩
  | cons head _ ih =>
    obtain ⟨hfirst, hrest⟩ := hallows
    obtain ⟨m₁, ledger₁, hstep, h₁⟩ := Store.exists_step h hfirst head
    obtain ⟨m', ledger', hsteps, h'⟩ := ih (hrest m₁ hstep) h₁
    exact ⟨m', ledger', .cons hstep hsteps, h'⟩

theorem exists_tracks_append {trace' : List (StoreEvent × Outcome)} {s'' : Session}
    (hrun : Runs StoreStep s trace s') (hrun' : Runs StoreStep s' trace' s'')
    (hallows : m.AllowsAll (trace ++ trace')) (h : Tracks HoldsTrees s m ledger) :
    ∃ m' m'' ledger' ledger'', Runs Store.Step m trace m' ∧ Tracks HoldsTrees s' m' ledger' ∧
      Runs Store.Step m' trace' m'' ∧ Tracks HoldsTrees s'' m'' ledger'' := by
  induction hrun generalizing m ledger with
  | nil =>
    obtain ⟨m'', ledger'', hruns, h''⟩ := exists_tracks hrun' hallows h
    exact ⟨m, m'', ledger, ledger'', .nil m, h, hruns, h''⟩
  | cons head _ ih =>
    obtain ⟨hfirst, hrest⟩ := hallows
    obtain ⟨m₁, ledger₁, hstep, h₁⟩ := Store.exists_step h hfirst head
    obtain ⟨m', m'', ledger', ledger'', hsteps, h', hsteps', h''⟩ := ih hrun' (hrest m₁ hstep) h₁
    exact ⟨m', m'', ledger', ledger'', .cons hstep hsteps, h', hsteps', h''⟩

/-- Between two commits the versions stay. -/
theorem versions_of_transient (hruns : Runs Store.Step m trace m')
    (htransient : ∀ entry ∈ trace, entry.1.Transient) : m'.versions = m.versions := by
  induction hruns with
  | nil => rfl
  | cons head _ ih =>
    obtain ⟨hfirst, hrest⟩ := List.forall_mem_cons.mp htransient
    rw [ih hrest, head.versions hfirst]

/-- Without a transaction the pages hold the trees that were committed. -/
theorem holdsTrees_committed (h : Tracks HoldsTrees s m ledger) (hworking : m.working = m.committed) :
    ∃ d, m.working = some d ∧ HoldsTrees s.abs.flat.active d ∧
      HoldsTrees s.abs.flat.committed d := by
  obtain ⟨d, hcommitted, hholds⟩ := h.committed
  have hd := hworking.trans hcommitted
  exact ⟨d, hd, h.working d hd, hholds⟩

/-- Calls that succeed leave one store only. -/
theorem follows_unique {m'' : Store} (h : m.Follows trace m') (hruns : Runs Store.Step m trace m'') :
    m'' = m' := by
  induction h with
  | nil m =>
    cases hruns
    rfl
  | cons hallows hok _ ih =>
    obtain _ | ⟨hstep, hruns⟩ := hruns
    obtain rfl := hstep.eq_after hok
    exact ih hruns

section NewDatabase

variable {path : String} {capacity : Nat} {databaseId : UInt64} {pager : Pager}
  (hcreate : Pager.createEmpty path ⟨none, none⟩ capacity databaseId = .ok pager)
  (hrun : Runs StoreStep (Session.start pager) trace s) (hallows : Store.start.AllowsAll trace)

include hcreate hrun hallows

/-- The trees of a database answer as maps do, with transactions, checkpoints and
crashes that have the effects of the abstract store. -/
theorem store_of_trees : ∃ m, Runs Store.Step .start trace m := by
  obtain ⟨m, _, hruns, -⟩ := exists_tracks hrun hallows (tracks_start hcreate (holdsTrees_empty databaseId))
  exact ⟨m, hruns⟩

/-- In every state that a program can reach, every tree is well formed, as the
transaction sees it and as it was committed: its leaves have the same depth, its keys
are sorted, its pages are filled, know their parents and their neighbours and are in
no other tree. -/
theorem trees_apart : ∃ m, Runs Store.Step .start trace m ∧
    (∀ d ∈ m.working, HoldsTrees s.abs.flat.active d) ∧
    ∃ d ∈ m.committed, HoldsTrees s.abs.flat.committed d := by
  obtain ⟨m, _, hruns, htracks⟩ := exists_tracks hrun hallows (tracks_start hcreate (holdsTrees_empty databaseId))
  exact ⟨m, hruns, htracks.working, htracks.committed⟩

/-- What the store allows can be done: every call ends, and after a crash that leaves
the header of the log, the files open. -/
theorem store_goes_on : ∃ m, Runs Store.Step .start trace m ∧
    (∀ c, m.Allows (.call c) → ∃ o s', StoreStep s (.call c) o s') ∧
    ∀ size order path capacity, WalHeader.walHeaderSize ≤ size →
      (s.pager.walManager.fileHandle.bytes.take size).length ≤ FileHandle.maxFileSize →
      0 < capacity → ∃ o s', StoreStep s (.crash size order path capacity) o s' := by
  obtain ⟨m, _, hruns, htracks⟩ := exists_tracks hrun hallows (tracks_start hcreate (holdsTrees_empty databaseId))
  refine ⟨m, hruns, fun c => Store.exists_step_call htracks, ?_⟩
  intro size order path capacity hsize hmax hcapacity
  obtain ⟨pager, hopen, -⟩ := htracks.open_crash hsize hmax order path hcapacity
  exact ⟨_, _, .crash hsize hmax hopen⟩

/-- An operation changes the pages of its own tree only, and adds new ones to it. -/
theorem tree_calls_local : ∃ m, Runs Store.Step .start trace m ∧
    ∀ tree call o s', m.Allows (.call (.onTree tree call)) →
      StoreStep s (.call (.onTree tree call)) o s' →
      ∃ (layout : Layout) (height : Nat) (t : Subtree layout height),
        WellFormed s.abs.flat.active tree t ∧
        ((∃ answer : TreeAnswer, o.answer = answer.map .value ∧
          CallEnds s.abs.flat.active tree t call answer s'.abs.flat.active) ∨
        o.turnedDown ∧ ∃ status, o.answer = .error status) := by
  obtain ⟨m, _, hruns, htracks⟩ := exists_tracks hrun hallows (tracks_start hcreate (holdsTrees_empty databaseId))
  refine ⟨m, hruns, ?_⟩
  rintro tree call o s' ⟨⟨d, hworking, htree⟩, hchanges⟩ ⟨hcall⟩
  obtain ⟨pages, hforest⟩ := htracks.working d hworking
  obtain ⟨map, hmap⟩ := Option.ne_none_iff_exists'.mp htree
  obtain ⟨layout, height, t, hwell, hadmits, -⟩ := hforest.stands tree map hmap
  have hends := (htracks.run (StoreCall.only_program (c := .onTree tree call) trivial)
    (hwell.yields_onTree hadmits hchanges) hcall).1
  exact ⟨layout, height, t, hwell, hends⟩

omit hallows

/-- A commit is one step for a crash: behind the log as it was before, what is left of
the log has all of the transaction or nothing, and the pages hold the trees accordingly. -/
theorem commits_are_atomic {order order' : IterationOrder PageId} {o o' : Outcome}
    {s' s'' : Session} {size capacity' : Nat} {path' : String}
    (hcommit : StoreStep s (.call (.transaction (.commitTransaction order))) o s') (hok : o.answer = .ok .done)
    (hallows : Store.start.AllowsAll (trace ++ [(.call (.transaction (.commitTransaction order)), o)]))
    (hcrash : StoreStep s' (.crash size order' path' capacity') o' s'')
    (hsize : s.walSize ≤ size) :
    ∃ m m' d, Runs Store.Step .start trace m ∧
      Runs Store.Step m [(.call (.transaction (.commitTransaction order)), o),
        (.crash size order' path' capacity', o')] m' ∧
      m'.status = .inactive ∧ m'.working = some d ∧
      some d = (if s'.walSize ≤ size then m.working else m.committed) ∧
      HoldsTrees s''.abs.flat.active d ∧ HoldsTrees s''.abs.flat.committed d := by
  obtain ⟨m, _, _, _, hruns, htracks, hruns', htracks'⟩ :=
    exists_tracks_append hrun (.cons hcommit (.nil s')) hallows (tracks_start hcreate (holdsTrees_empty databaseId))
  obtain _ | ⟨hstep, ⟨⟩⟩ := hruns'
  obtain ⟨m', _, hstep', htracks''⟩ := Store.exists_step htracks'
    (e := .crash size order' path' capacity') trivial hcrash
  obtain ⟨d, hworking, rfl⟩ := (hstep.transaction hok).commit
  obtain ⟨hversions, hworking', hstatus⟩ := hstep'.crashes.versions
  obtain ⟨d', hd', hholds, hholds'⟩ := holdsTrees_committed htracks'' hworking'
  refine ⟨m, m', d', hruns, .cons hstep (.cons hstep' (.nil m')), hstatus, hd', ?_, hholds, hholds'⟩
  have hkept : (m.versions.filter fun version => version.1 ≤ size) = m.versions :=
    List.filter_eq_self.mpr fun version hmem =>
      decide_eq_true ((htracks.versions_le version hmem).trans hsize)
  have hlogged : o.walSize = s'.walSize := by
    cases hcommit
    rfl
  rw [List.filter_append, hkept, hlogged] at hversions
  rw [← hd', hworking', VersionStore.committed, hversions, hworking, VersionStore.committed]
  split
  · next hle =>
    have hfilter : ([(s'.walSize, d)].filter fun version => version.1 ≤ size) = [(s'.walSize, d)] :=
      List.filter_cons_of_pos (decide_eq_true hle)
    rw [hfilter, List.getLast?_concat, Option.map_some]
  · next hlt =>
    have hfilter : ([(s'.walSize, d)].filter fun version => version.1 ≤ size) = [] :=
      List.filter_cons_of_neg (mt of_decide_eq_true hlt)
    rw [hfilter, List.append_nil]

/-- What a transaction has done, and what a call that was turned down has left half done,
goes away with a rollback or a crash: then the pages hold the trees committed last. -/
theorem unfinished_work_vanishes {trace' : List (StoreEvent × Outcome)} {s' s'' : Session}
    {e : StoreEvent} {o : Outcome} (hrun' : Runs StoreStep s trace' s')
    (hallows : Store.start.AllowsAll (trace ++ trace'))
    (htransient : ∀ entry ∈ trace', entry.1.Transient) (hstep : StoreStep s' e o s'')
    (hend : (∃ order, e = .call (.transaction (.rollbackTransaction order))) ∧ o.answer = .ok .done ∨
      ∃ size order path capacity, e = .crash size order path capacity ∧ s'.walSize ≤ size) :
    ∃ m m' d, Runs Store.Step .start trace m ∧ Runs Store.Step m (trace' ++ [(e, o)]) m' ∧
      m'.status = .inactive ∧ m'.versions = m.versions ∧ m'.working = some d ∧
      m.committed = some d ∧ HoldsTrees s''.abs.flat.active d ∧
      HoldsTrees s''.abs.flat.committed d := by
  obtain ⟨m, m', _, _, hruns, -, hruns', htracks⟩ :=
    exists_tracks_append hrun hrun' hallows (tracks_start hcreate (holdsTrees_empty databaseId))
  have hversions := versions_of_transient hruns' htransient
  have hallowed : m'.Allows e := by
    obtain ⟨⟨order, rfl⟩, -⟩ | ⟨size, order, path, capacity, rfl, -⟩ := hend <;> trivial
  obtain ⟨m'', _, hlast, htracks'⟩ := Store.exists_step htracks hallowed hstep
  have hcommitted : m'.committed = m.committed := by
    rw [VersionStore.committed, VersionStore.committed, hversions]
  obtain ⟨hworking, hstatus, hversions'⟩ : m''.working = m'.committed ∧ m''.status = .inactive ∧
      m''.versions = m'.versions := by
    obtain ⟨⟨order, rfl⟩, hok⟩ | ⟨size, order, path, capacity, rfl, hsize⟩ := hend
    · exact (hlast.transaction hok).rollback
    · exact hlast.crashes.all fun version hmem => (htracks.versions_le version hmem).trans hsize
  have hcommitted' : m''.committed = m'.committed := by
    rw [VersionStore.committed, VersionStore.committed, hversions']
  obtain ⟨d, hd, hholds, hholds'⟩ := holdsTrees_committed htracks' (hworking.trans hcommitted'.symm)
  exact ⟨m, m'', d, hruns, hruns'.append (.cons hlast (.nil m'')), hstatus,
    hversions'.trans hversions, hd, hcommitted.symm.trans (hworking.symm.trans hd), hholds, hholds'⟩

end NewDatabase

/-! ## A tree with two keys -/

section Small

variable {frameCount : Nat} {flat : FlatSession} {script : List (StoreCall × StoreValue)}
  {post : Store → Prop}

/-- The calls of a script with their values. -/
def eventsOf (script : List (StoreCall × StoreValue)) : List (StoreEvent × Except Status StoreValue) :=
  script.map fun entry => (.call entry.1, .ok entry.2)

/-- A session that has played a script, which the store follows. -/
structure PlayedStore (s : Session) (m : Store) (script : List (StoreCall × StoreValue))
    (flat : FlatSession) (trace : List (StoreEvent × Outcome)) (s' : Session) (m' : Store) :
    Prop where
  runs : Runs StoreStep s trace s'
  events : trace.map (fun entry => (entry.1, entry.2.answer)) = eventsOf script
  follows : m.Follows trace m'
  sound : s'.Sound
  noFaults : s'.NoFaults
  abs : s'.abs = flat
  frameCount : s'.pager.frameCount = s.pager.frameCount
  walSize : (∀ entry ∈ script, entry.1.program.Only PageCall.KeepsStore) → s'.walSize = s.walSize

/-- A program that leaves the files alone leaves the log as long as it is. -/
theorem walSize_of_run {α : Type} {x : PageProgram α} (hx : x.Only PageCall.KeepsStore) (h : s.Sound)
    {calls : List (PageCall × Reply)} {r : Except Status α}
    (hrun : x.run Session.machine s = some (calls, r, s')) : s'.walSize = s.walSize := by
  have hstep : ∀ (t : Session) (c : PageCall) (r : Reply) (t' : Session), c.KeepsStore →
      t.machine c = some (r, t') → (t.Sound ∧ t.walSize = s.walSize) →
        t'.Sound ∧ t'.walSize = s.walSize := by
    rintro t c r t' hkeeps hcall ⟨hsound, hsize⟩
    have hsame := Session.Step.sameStore hcall hsound hkeeps
    refine ⟨(hsound.step hcall).1, ?_⟩
    rw [← hsize, Session.walSize, Session.walSize, hsame.wal]
  exact (hx.run hstep hrun ⟨h, rfl⟩).2

/-- A session answers as the flat array does. -/
theorem exists_playedStore (h : s.Sound) (hno : s.NoFaults) (hframes : s.pager.frameCount = frameCount)
    (hsmall : frameCount ≤ Session.maxHandles)
    (hplay : playScript frameCount s.abs script = some flat) (hplays : m.Plays script post) :
    ∃ trace s' m', PlayedStore s m script flat trace s' m' ∧ post m' := by
  induction script generalizing s m with
  | nil =>
    cases hplay
    exact ⟨[], s, m, ⟨.nil s, rfl, .nil m, h, hno, rfl, rfl, fun _ => rfl⟩, hplays⟩
  | cons entry script ih =>
    obtain ⟨c, value⟩ := entry
    obtain ⟨hallows, hplays⟩ := hplays
    obtain ⟨⟨calls, answer, flat₁⟩, hrun, hrest⟩ := Option.bind_eq_some_iff.mp hplay
    dsimp only at hrest
    split at hrest
    swap
    · cases hrest
    rename_i hvalue
    obtain ⟨s₁, hrun₁, hs₁⟩ := h.run_program hno hframes hsmall hrun
    obtain rfl := hs₁.abs
    cases answer with
    | error status => cases hvalue
    | ok value' =>
      obtain rfl := Option.some.inj hvalue
      obtain ⟨trace, s', m', hs', hpost⟩ := ih hs₁.sound hs₁.noFaults (hs₁.frameCount.trans hframes)
        hrest (hplays s₁.walSize)
      refine ⟨_, s', m', ⟨.cons (.call hrun₁) hs'.runs, ?_, .cons hallows rfl hs'.follows, hs'.sound,
        hs'.noFaults, hs'.abs, hs'.frameCount.trans hs₁.frameCount, fun hkeeps => ?_⟩, hpost⟩
      · rw [List.map_cons, hs'.events]
        rfl
      · obtain ⟨hfirst, hothers⟩ := List.forall_mem_cons.mp hkeeps
        exact (hs'.walSize hothers).trans (walSize_of_run hfirst h hrun₁)

variable {s'' : Session} {m'' : Store} {flat' : FlatSession}
  {script' : List (StoreCall × StoreValue)} {trace' : List (StoreEvent × Outcome)}

theorem PlayedStore.append (h : PlayedStore s m script flat trace s' m')
    (h' : PlayedStore s' m' script' flat' trace' s'' m'') :
    PlayedStore s m (script ++ script') flat' (trace ++ trace') s'' m'' where
  runs := h.runs.append h'.runs
  events := by
    rw [List.map_append, h.events, h'.events]
    exact List.map_append.symm
  follows := h.follows.append h'.follows
  sound := h'.sound
  noFaults := h'.noFaults
  abs := h'.abs
  frameCount := h'.frameCount.trans h.frameCount
  walSize hkeeps := by
    obtain ⟨hfirst, hrest⟩ := List.forall_mem_append.mp hkeeps
    exact (h'.walSize hrest).trans (h.walSize hfirst)

/-- A second script starts where the first has ended. -/
theorem PlayedStore.play (h : PlayedStore s m script flat trace s' m')
    (hframes : s.pager.frameCount = frameCount) (hsmall : frameCount ≤ Session.maxHandles)
    (hplay : playScript frameCount flat script' = some flat') (hplays : m'.Plays script' post) :
    ∃ trace' s'' m'', PlayedStore s' m' script' flat' trace' s'' m'' ∧ post m'' :=
  exists_playedStore h.sound h.noFaults (h.frameCount.trans hframes) hsmall (h.abs ▸ hplay) hplays

/-- A script of one call. -/
theorem PlayedStore.single {c : StoreCall} {value : StoreValue}
    (h : PlayedStore s m [(c, value)] flat trace s' m') :
    ∃ o, o.answer = .ok value ∧ trace = [(.call c, o)] ∧ StoreStep s (.call c) o s' := by
  obtain ⟨hruns, hevents, -⟩ := h
  cases hruns with
  | nil => cases hevents
  | cons hstep hrest =>
    obtain ⟨hfirst, hothers⟩ := List.cons.inj hevents
    obtain rfl := List.map_eq_nil_iff.mp hothers
    cases hrest
    obtain ⟨rfl, hanswer⟩ := Prod.mk.inj hfirst
    exact ⟨_, hanswer, rfl, hstep⟩

/-- The call to the pager that a transaction makes. -/
theorem transaction_step {c : TransactionCall} {o : Outcome}
    (h : StoreStep s (.call (.transaction c)) o s') (hok : o.answer = .ok .done) :
    ∃ page, s.Step c.call.1 (.ok page) s' := by
  obtain ⟨hrun⟩ := h
  obtain ⟨reply, hcall, rfl, -⟩ := TransactionCall.run_program_bind hrun
  cases reply with
  | error status => cases hok
  | ok page => exact ⟨page, hcall⟩

/-- A call of a transaction that leaves the files alone. -/
theorem only_transaction {c : TransactionCall} (h : c.call.KeepsStore) :
    (StoreCall.transaction c).program.Only PageCall.KeepsStore :=
  Program.Only.bind (Program.Only.bind ⟨h, fun _ => Program.only_done _⟩ fun _ =>
    Program.only_pure _) fun _ => Program.only_pure _

/-- The first tree of a database. -/
def rootTree : BTree := ⟨1, 1, 1⟩

/-- A transaction that makes the tree with a key. -/
def creation : List (StoreCall × StoreValue) :=
  [(.transaction .beginTransaction, .done), (.createNew 1 1, .tree rootTree),
    (.onTree rootTree (.insert [1] [10]), .value none)]

/-- A call of a transaction. -/
def transaction (c : TransactionCall) : List (StoreCall × StoreValue) := [(.transaction c, .done)]

/-- A transaction that adds a key. -/
def addition : List (StoreCall × StoreValue) :=
  [(.transaction .beginTransaction, .done), (.onTree rootTree (.insert [2] [20]), .value none),
    (.onTree rootTree (.find [1]), .value (some [10]))]

def oneKey : ByteMap := Function.update (fun _ => none) [1] (some [10])

def twoKeys : ByteMap := Function.update oneKey [2] (some [20])

/-- The store has the tree with the first key, committed. -/
def HasOneKey (m : Store) : Prop :=
  m.status = .inactive ∧ ∃ d, m.working = some d ∧ m.committed = some d ∧ d rootTree = some oneKey

/-- The transaction has added the other key. -/
def HasTwoKeys (m m' : Store) : Prop :=
  m'.status = .active ∧ m'.versions = m.versions ∧ ∃ d, m'.working = some d ∧ d rootTree = some twoKeys

/-- What was committed is as it was. -/
theorem HasTwoKeys.committed {d : Database} (h : HasTwoKeys m m') (hone : HasOneKey m)
    (hd : m'.committed = some d) : d rootTree = some oneKey := by
  obtain ⟨-, d', -, hcommitted, htree⟩ := hone
  rw [VersionStore.committed, h.2.1] at hd
  obtain rfl := Option.some.inj (hcommitted.symm.trans hd)
  exact htree

/-- The store allows the first transaction, -/
theorem plays_creation :
    Store.start.Plays (creation ++ transaction (.commitTransaction .insertion)) HasOneKey := by
  refine ⟨trivial, fun _ => ⟨⟨rfl, by rintro ⟨⟩⟩, fun _ => ⟨⟨⟨_, rfl, ?_⟩, fun _ => rfl⟩, fun _ =>
    ⟨by rintro ⟨⟩, fun _ => ⟨rfl, _, rfl, rfl, ?_⟩⟩⟩⟩⟩
  · dsimp only
    rw [Function.update_self]
    rintro ⟨⟩
  · dsimp only
    rw [Function.update_self, Function.update_self]
    rfl

/-- A checkpoint keeps the trees. -/
theorem plays_checkpoint (h : HasOneKey m) :
    m.Plays (transaction (.checkpoint .insertion)) HasOneKey := by
  obtain ⟨hstatus, d, hworking, hcommitted, htree⟩ := h
  refine ⟨trivial, fun walSize => ⟨hstatus, d, hworking, ?_, htree⟩⟩
  show ((m.committed.map fun d => (walSize, d)).toList.getLast?).map Prod.snd = some d
  rw [hcommitted]
  rfl

/-- and the second. -/
theorem plays_addition (h : HasOneKey m) : m.Plays addition (HasTwoKeys m) := by
  obtain ⟨hstatus, d, hworking, -, htree⟩ := h
  obtain ⟨versions, working, status⟩ := m
  obtain rfl : working = some d := hworking
  refine ⟨trivial, fun _ => ⟨⟨⟨d, rfl, ?_⟩, fun _ => rfl⟩, fun _ => ⟨⟨⟨_, rfl, ?_⟩, fun _ => rfl⟩,
    fun _ => ⟨rfl, rfl, _, rfl, ?_⟩⟩⟩⟩
  · rw [htree]
    rintro ⟨⟩
  · dsimp only
    rw [Function.update_self, htree]
    rintro ⟨⟩
  · dsimp only
    rw [Function.update_self, Function.update_self, htree]
    rfl

theorem transient_addition (h : PlayedStore s m addition flat trace s' m') :
    ∀ entry ∈ trace, entry.1.Transient := by
  intro entry hmem
  have hevent := List.mem_map_of_mem (f := fun entry => (entry.1, entry.2.answer)) hmem
  rw [h.events] at hevent
  obtain ⟨played, hplayed, heq⟩ := List.mem_map.mp hevent
  obtain ⟨hcall, -⟩ := Prod.mk.inj heq
  rw [← hcall]
  rintro transaction hcalls
  fin_cases hplayed
  · cases hcalls
    trivial
  · cases hcalls
  · cases hcalls

/-- The tree is made and committed with a key and the log is emptied, which leads to `s`.  Then
a transaction adds the other key, which leads to `s'`. -/
structure Added (check : FlatSession → Bool) (pager : Pager) (trace trace' : List (StoreEvent × Outcome))
    (s s' : Session) (m m' : Store) (flat' : FlatSession) : Prop where
  create : Pager.createEmpty "db" ⟨none, none⟩ 8 7 = .ok pager
  committed : ∃ flat, PlayedStore (Session.start pager) .start (creation ++
    transaction (.commitTransaction .insertion) ++ transaction (.checkpoint .insertion)) flat
    trace s m
  hasOneKey : HasOneKey m
  added : PlayedStore s m addition flat' trace' s' m'
  hasTwoKeys : HasTwoKeys m m'
  check : check flat' = true
  frameCount : s.pager.frameCount = 8
  walSize : s'.walSize = WalHeader.walHeaderSize

theorem exists_added (check : FlatSession → Bool)
    (hplay : (playScript 8 ⟨.settled (Pager.emptyView 7), []⟩
      (creation ++ transaction (.commitTransaction .insertion))).any (fun flat =>
        (playScript 8 flat (transaction (.checkpoint .insertion))).any fun flat =>
          (playScript 8 flat addition).any check) = true) :
    ∃ pager trace trace' s s' m m' flat', Added check pager trace trace' s s' m m' flat' := by
  obtain ⟨pager, hcreate, -⟩ := Pager.createEmpty_eq "db" (show 0 < 8 by decide) 7
  obtain ⟨hsound, hno, habs⟩ := (Session.Starts.create hcreate).sound
  have hframes := Pager.frameCount_of_createEmpty hcreate
  obtain ⟨flat₁, hplay₁, hplay⟩ := (Option.any_eq_true ..).mp hplay
  obtain ⟨flat₂, hplay₂, hplay⟩ := (Option.any_eq_true ..).mp hplay
  obtain ⟨flat₃, hplay₃, hcheck⟩ := (Option.any_eq_true ..).mp hplay
  rw [← habs] at hplay₁
  obtain ⟨trace₁, s₁, m₁, hs₁, hone⟩ :=
    exists_playedStore hsound hno hframes (by decide) hplay₁ plays_creation
  obtain ⟨trace₂, s₂, m₂, hs₂, hone₂⟩ := hs₁.play hframes (by decide) hplay₂ (plays_checkpoint hone)
  obtain ⟨o, hok, -, hstep⟩ := hs₂.single
  obtain ⟨page, hcheckpoint⟩ := transaction_step hstep hok
  have hsize := Session.walSize_of_logs (hs₁.sound.checkpoint_ok hcheckpoint).1
  have hs := hs₁.append hs₂
  obtain ⟨trace₃, s₃, m₃, hs₃, htwo⟩ := hs.play hframes (by decide) hplay₃ (plays_addition hone₂)
  refine ⟨pager, _, trace₃, s₂, s₃, m₂, m₃, flat₃, hcreate, ⟨flat₂, hs⟩, hone₂, hs₃, htwo, hcheck,
    hs.frameCount.trans hframes, (hs₃.walSize fun entry hmem => ?_).trans hsize⟩
  fin_cases hmem
  · exact only_transaction trivial
  · exact StoreCall.only_program trivial
  · exact StoreCall.only_program trivial

section Added

variable {check : FlatSession → Bool} {pager : Pager}

theorem Added.played (h : Added check pager trace trace' s s' m m' flat') :
    PlayedStore (Session.start pager) .start (creation ++
      transaction (.commitTransaction .insertion) ++ transaction (.checkpoint .insertion) ++
      addition) flat' (trace ++ trace') s' m' := by
  obtain ⟨flat, hs⟩ := h.committed
  exact hs.append h.added

/-- One call more. -/
theorem Added.play (h : Added check pager trace trace' s s' m m' flat') {c : StoreCall}
    {value : StoreValue} (hplay : (playScript 8 flat' [(c, value)]).isSome) (hallows : m'.Allows (.call c)) :
    ∃ o s'' m'', o.answer = .ok value ∧ StoreStep s' (.call c) o s'' ∧ m'.Follows [(.call c, o)] m'' := by
  obtain ⟨flat'', hplay⟩ := Option.isSome_iff_exists.mp hplay
  have hplays : m'.Plays [(c, value)] fun _ => True := ⟨hallows, fun _ => trivial⟩
  obtain ⟨_, s'', m'', hs'', -⟩ := h.added.play h.frameCount (by decide) hplay hplays
  obtain ⟨o, hok, rfl, hstep⟩ := hs''.single
  exact ⟨o, s'', m'', hok, hstep, hs''.follows⟩

theorem Added.allows (h : Added check pager trace trace' s s' m m' flat') (call : TreeCall) :
    m'.Allows (.call (.onTree rootTree call)) := by
  obtain ⟨hstatus, -, d, hd, htwoKeys⟩ := h.hasTwoKeys
  refine ⟨⟨d, hd, fun hnone => ?_⟩, fun _ => hstatus⟩
  rw [htwoKeys] at hnone
  cases hnone

end Added

theorem store_of_trees_small : ∃ (trace : List (StoreEvent × Outcome)) (m : Store),
    trace.map (fun entry => (entry.1, entry.2.answer)) =
      eventsOf (creation ++ transaction (.commitTransaction .insertion) ++
        transaction (.checkpoint .insertion) ++ addition) ∧
    Runs Store.Step .start trace m ∧ ∃ d, m.working = some d ∧ d rootTree = some twoKeys := by
  obtain ⟨pager, trace, trace', s, s', m, m', flat, h⟩ :=
    exists_added (fun _ => true) (by decide +kernel)
  obtain ⟨m'', hruns⟩ := store_of_trees h.create h.played.runs h.played.follows.allowsAll
  obtain rfl := follows_unique h.played.follows hruns
  exact ⟨_, m'', h.played.events, hruns, h.hasTwoKeys.2.2⟩

theorem trees_apart_small : ∃ (s : Session) (d d' : Database),
    HoldsTrees s.abs.flat.active d ∧ d rootTree = some twoKeys ∧
    HoldsTrees s.abs.flat.committed d' ∧ d' rootTree = some oneKey := by
  obtain ⟨pager, trace, trace', s, s', m, m', flat, h⟩ :=
    exists_added (fun _ => true) (by decide +kernel)
  obtain ⟨m'', hruns, hactive, d', hd', hholds'⟩ :=
    trees_apart h.create h.played.runs h.played.follows.allowsAll
  obtain rfl := follows_unique h.played.follows hruns
  obtain ⟨d, hd, htwoKeys⟩ := h.hasTwoKeys.2.2
  exact ⟨s', d, d', hactive d hd, htwoKeys, hholds', h.hasTwoKeys.committed h.hasOneKey hd'⟩

theorem store_goes_on_small : ∃ s : Session,
    (∃ o s', StoreStep s (.call (.onTree rootTree (.find [2]))) o s') ∧
    ∃ o s', StoreStep s (.crash WalHeader.walHeaderSize .insertion "db" 1) o s' := by
  obtain ⟨pager, trace, trace', s, s', m, m', flat, h⟩ :=
    exists_added (fun _ => true) (by decide +kernel)
  obtain ⟨m'', hruns, hcalls, hcrashes⟩ :=
    store_goes_on h.create h.played.runs h.played.follows.allowsAll
  obtain rfl := follows_unique h.played.follows hruns
  exact ⟨s', hcalls _ (h.allows _), hcrashes _ .insertion "db" 1 (Nat.le_refl _)
    ((List.length_take_le ..).trans (by decide)) (by decide)⟩

theorem tree_calls_local_small : ∃ (s s' : Session) (o : Outcome) (layout : Layout) (height : Nat)
    (t : Subtree layout height), StoreStep s (.call (.onTree rootTree (.erase [1]))) o s' ∧
      WellFormed s.abs.flat.active rootTree t ∧ o.answer = .ok (.value none) ∧
      CallEnds s.abs.flat.active rootTree t (.erase [1]) (.ok none) s'.abs.flat.active := by
  obtain ⟨pager, trace, trace', s, s', m, m', flat, h⟩ := exists_added (fun flat =>
    (playScript 8 flat [(.onTree rootTree (.erase [1]), .value none)]).isSome) (by decide +kernel)
  obtain ⟨o, s'', -, hok, hstep, -⟩ := h.play h.check (h.allows _)
  obtain ⟨m'', hruns, hlocal⟩ := tree_calls_local h.create h.played.runs h.played.follows.allowsAll
  obtain rfl := follows_unique h.played.follows hruns
  obtain ⟨layout, height, t, hwell, ⟨answer, hanswer, hends⟩ | ⟨-, status, herror⟩⟩ :=
    hlocal _ _ o s'' (h.allows _) hstep
  · rw [hok] at hanswer
    cases answer with
    | error status => cases hanswer
    | ok value =>
      cases hanswer
      exact ⟨s', s'', o, layout, height, t, hstep, hwell, hok, hends⟩
  · rw [hok] at herror
    cases herror

/-- A crash after the commit that leaves all of the log, or all but its last byte. -/
theorem commits_are_atomic_small : ∃ (s s' s₁ s₂ : Session) (o o₁ o₂ : Outcome) (d₁ d₂ : Database),
    StoreStep s (.call (.transaction (.commitTransaction .insertion))) o s' ∧ o.answer = .ok .done ∧
    StoreStep s' (.crash (s'.walSize - 1) .insertion "db" 1) o₁ s₁ ∧
    HoldsTrees s₁.abs.flat.active d₁ ∧ d₁ rootTree = some oneKey ∧
    StoreStep s' (.crash s'.walSize .insertion "db" 1) o₂ s₂ ∧
    HoldsTrees s₂.abs.flat.active d₂ ∧ d₂ rootTree = some twoKeys := by
  obtain ⟨pager, trace, trace', s, s', m, m', flat, h⟩ := exists_added (fun flat =>
    flat.flat.dirtyPageIds.length = 1 ∧
      (playScript 8 flat (transaction (.commitTransaction .insertion))).isSome) (by decide +kernel)
  obtain ⟨hdirty, hplay⟩ := of_decide_eq_true h.check
  obtain ⟨d, hd, htwoKeys⟩ := h.hasTwoKeys.2.2
  obtain ⟨o, s'', m'', hok, hstep, hfollows⟩ := h.play hplay
    (fun hnone => by rw [hd] at hnone; cases hnone)
  have hallows := (h.played.follows.append hfollows).allowsAll
  obtain ⟨m₁, m₂, _, _, hruns, htracks, -, htracks'⟩ := exists_tracks_append h.played.runs
    (.cons hstep (.nil s'')) hallows (tracks_start h.create (holdsTrees_empty 7))
  obtain rfl := follows_unique h.played.follows hruns
  -- the log has a frame and a commit record more
  obtain ⟨page, hcommit⟩ := transaction_step hstep hok
  obtain ⟨log, hrecorded⟩ := htracks.recorded
  have hsize := hrecorded.sound.walSize_commit hrecorded.logs hcommit
  rw [h.walSize, h.added.abs, hdirty] at hsize
  have hcrash : ∀ size, WalHeader.walHeaderSize ≤ size → size ≤ s''.walSize →
      ∃ o s₁, StoreStep s'' (.crash size .insertion "db" 1) o s₁ := by
    intro size hle hge
    have hmax : (s''.pager.walManager.fileHandle.bytes.take size).length ≤ FileHandle.maxFileSize := by
      refine (List.length_take_le ..).trans (hge.trans ?_)
      rw [hsize]
      decide
    obtain ⟨pager', hopen, -⟩ := htracks'.open_crash hle hmax .insertion "db" (show 0 < 1 by decide)
    exact ⟨_, _, .crash hle hmax hopen⟩
  obtain ⟨o₁, s₁, hcrash₁⟩ := hcrash (s''.walSize - 1) (by rw [hsize]; decide) (Nat.sub_le ..)
  obtain ⟨o₂, s₂, hcrash₂⟩ := hcrash s''.walSize (by rw [hsize]; decide) (Nat.le_refl _)
  obtain ⟨_, _, d₁, hruns₁, -, -, -, hlog₁, hholds₁, -⟩ := commits_are_atomic h.create h.played.runs
    hstep hok hallows hcrash₁ (by rw [h.walSize, hsize]; decide)
  obtain ⟨_, _, d₂, hruns₂, -, -, -, hlog₂, hholds₂, -⟩ := commits_are_atomic h.create h.played.runs
    hstep hok hallows hcrash₂ (by rw [h.walSize, hsize]; decide)
  obtain rfl := follows_unique h.played.follows hruns₁
  obtain rfl := follows_unique h.played.follows hruns₂
  rw [if_neg (by rw [hsize]; decide)] at hlog₁
  rw [if_pos (Nat.le_refl _)] at hlog₂
  obtain rfl := Option.some.inj (hlog₂.trans hd)
  exact ⟨s', s'', s₁, s₂, o, o₁, o₂, d₁, d₂, hstep, hok, hcrash₁, hholds₁,
    h.hasTwoKeys.committed h.hasOneKey hlog₁.symm, hcrash₂, hholds₂, htwoKeys⟩

theorem unfinished_work_vanishes_small : ∃ (s s' s'' : Session) (o : Outcome) (d : Database)
    (trace : List (StoreEvent × Outcome)), Runs StoreStep s trace s' ∧
      trace.map (fun entry => (entry.1, entry.2.answer)) = eventsOf addition ∧
      StoreStep s' (.call (.transaction (.rollbackTransaction .insertion))) o s'' ∧
      o.answer = .ok .done ∧ HoldsTrees s''.abs.flat.active d ∧ d rootTree = some oneKey := by
  obtain ⟨pager, trace, trace', s, s', m, m', flat, h⟩ := exists_added (fun flat =>
    (playScript 8 flat (transaction (.rollbackTransaction .insertion))).isSome) (by decide +kernel)
  obtain ⟨o, s'', -, hok, hstep, -⟩ := h.play h.check trivial
  obtain ⟨flat₁, hs⟩ := h.committed
  obtain ⟨m₁, m₂, d, hruns, -, -, -, -, hd, hholds, -⟩ := unfinished_work_vanishes h.create hs.runs
    h.added.runs h.played.follows.allowsAll (transient_addition h.added) hstep (.inl ⟨⟨.insertion, rfl⟩, hok⟩)
  obtain rfl := follows_unique hs.follows hruns
  obtain ⟨-, d', -, hcommitted, honeKey⟩ := h.hasOneKey
  obtain rfl := Option.some.inj (hcommitted.symm.trans hd)
  exact ⟨s, s', s'', o, d', trace', h.added.runs, h.added.events, hstep, hok, hholds, honeKey⟩

end Small

end DanDB
