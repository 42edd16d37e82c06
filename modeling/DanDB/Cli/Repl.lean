import DanDB.Execution.Texts

/-!
# The REPL

Lines are collected until they make up whole statements, which are then executed.
Of the output nothing is modelled, but a long result is shown in pages, and the
replies to the pager come from the same input as the lines.
-/

namespace DanDB.Cli

open DanDB.Core Execution Sql

/-- `std::isspace` -/
def isSpace (ch : Char) : Bool := ch = ' ' || '\t' ≤ ch && ch ≤ '\r'

def isBlank (text : String) : Bool := text.toList.all isSpace

def helpCommand : String := ".help"

def exitCommand : String := ".exit"

namespace Repl

variable {Catalog Statement BoundStatement Row : Type}

def pageSize : Nat := 100

/-- What is left of the input behind `render_row_set`, which has `rows` rows to print
and reads a reply behind each page but the last; nothing when the input ends there. -/
def renderRowSet : Nat → List String → Option (List String)
  | rows, [] => if rows ≤ pageSize then some [] else none
  | rows, reply :: input =>
    if rows ≤ pageSize then some (reply :: input)
    else if reply.isEmpty then renderRowSet (rows - pageSize) input
    else some input

/-- What is left of the input behind `render_results`. -/
def renderResults : List (ExecutionResult Row) → List String → Option (List String)
  | [], input => some input
  | result :: results, input =>
    match result.status, result.rowSet with
    | .ok _, some rowSet =>
      match renderRowSet rowSet.rows.length input with
      | none => none
      | some input => renderResults results input
    | _, _ => renderResults results input

/-- The only result says that the input is not complete. -/
def needsMoreInput : List (ExecutionResult Row) → Bool
  | [result] =>
    match result.status with
    | .ok _ => false
    | .error status => status.code = .incompleteInput
  | _ => false

/-- What `run` does with a line. -/
inductive Action where
  /-- `continue`, with nothing executed. -/
  | skip
  | exit
  /-- Execute what is pending. -/
  | submit
  /-- Add the line to what is pending, and execute that. -/
  | add
deriving DecidableEq

def action (pendingInput line : String) : Action :=
  if pendingInput.isEmpty then
    if isBlank line then .skip
    else if line = helpCommand then .skip
    else if line = exitCommand then .exit
    else .add
  else if isBlank line then .submit
  else .add

/-- What happened in a session. -/
structure Transcript (Catalog Statement Row : Type) where
  /-- The lines read at the prompts. -/
  lines : List String
  /-- The statements executed, each with its result. -/
  executed : List (Statement × ExecutionResult Row)
  /-- The database at the end. -/
  database : Database Catalog

/-- The session with a line before it. -/
def Transcript.after (session : Transcript Catalog Statement Row) (line : String)
    (executed : List (Statement × ExecutionResult Row)) : Transcript Catalog Statement Row :=
  { session with lines := line :: session.lines, executed := executed ++ session.executed }

theorem length_renderRowSet {rows : Nat} {input rest : List String}
    (h : renderRowSet rows input = some rest) : rest.length ≤ input.length := by
  induction input generalizing rows with
  | nil =>
    rw [renderRowSet] at h
    split at h
    · exact Option.some.inj h ▸ Nat.le_refl _
    · cases h
  | cons reply input ih =>
    rw [renderRowSet] at h
    split at h
    · exact Option.some.inj h ▸ Nat.le_refl _
    · split at h
      · exact Nat.le_succ_of_le (ih h)
      · exact Option.some.inj h ▸ Nat.le_succ _

theorem length_renderResults {results : List (ExecutionResult Row)} {input rest : List String}
    (h : renderResults results input = some rest) : rest.length ≤ input.length := by
  induction results generalizing input with
  | nil => exact Option.some.inj h ▸ Nat.le_refl _
  | cons result results ih =>
    rw [renderResults] at h
    split at h
    · split at h
      · cases h
      · rename_i hrows
        exact Nat.le_trans (ih h) (length_renderRowSet hrows)
    · exact ih h

/-- A session that reads the input from the database on. -/
def run (engine : Engine Catalog Statement BoundStatement Row) (database : Database Catalog)
    (pendingInput : String) (input : List String) : Transcript Catalog Statement Row :=
  match input with
  | [] => ⟨[], [], database⟩
  | line :: input =>
    match action pendingInput line with
    | .skip => (run engine database pendingInput input).after line []
    | .exit => ⟨[line], [], database⟩
    | .submit =>
      let executed := Database.executed engine pendingInput database
      let results := Database.execute engine pendingInput database
      match _h : renderResults results.1 input with
      | none => ⟨[line], executed, results.2⟩
      | some input' => (run engine results.2 "" input').after line executed
    | .add =>
      let pendingInput := pendingInput ++ line ++ "\n"
      let executed := Database.executed engine pendingInput database
      let results := Database.execute engine pendingInput database
      if needsMoreInput results.1 then
        (run engine results.2 pendingInput input).after line executed
      else
        match _h : renderResults results.1 input with
        | none => ⟨[line], executed, results.2⟩
        | some input' => (run engine results.2 "" input').after line executed
termination_by input.length
decreasing_by
  · exact Nat.lt_succ_self _
  · exact Nat.lt_succ_of_le (length_renderResults _h)
  · exact Nat.lt_succ_self _
  · exact Nat.lt_succ_of_le (length_renderResults _h)

/-! ## One round -/

section Rounds

variable {engine : Engine Catalog Statement BoundStatement Row} {database : Database Catalog}
  {pendingInput line : String} {input : List String}

theorem run_nil : run engine database pendingInput [] = ⟨[], [], database⟩ := by rw [run]

theorem run_skip (h : action pendingInput line = .skip) :
    run engine database pendingInput (line :: input) =
      (run engine database pendingInput input).after line [] := by
  rw [run, h]

theorem run_exit (h : action pendingInput line = .exit) :
    run engine database pendingInput (line :: input) = ⟨[line], [], database⟩ := by
  rw [run, h]

/-- The session behind the results of a text that has been executed. -/
def submitted (engine : Engine Catalog Statement BoundStatement Row)
    (database : Database Catalog) (sql line : String) (input : List String) :
    Transcript Catalog Statement Row :=
  match renderResults (Database.execute engine sql database).1 input with
  | none => ⟨[line], Database.executed engine sql database,
      (Database.execute engine sql database).2⟩
  | some input' => (run engine (Database.execute engine sql database).2 "" input').after line
      (Database.executed engine sql database)

theorem run_submit (h : action pendingInput line = .submit) :
    run engine database pendingInput (line :: input) =
      submitted engine database pendingInput line input := by
  rw [run, h, submitted]
  dsimp only
  split <;> (rename_i hrender; rw [hrender])

theorem run_add (h : action pendingInput line = .add) :
    run engine database pendingInput (line :: input) =
      if needsMoreInput (Database.execute engine (pendingInput ++ line ++ "\n") database).1 then
        (run engine (Database.execute engine (pendingInput ++ line ++ "\n") database).2
          (pendingInput ++ line ++ "\n") input).after line
          (Database.executed engine (pendingInput ++ line ++ "\n") database)
      else submitted engine database (pendingInput ++ line ++ "\n") line input := by
  rw [run, h, submitted]
  dsimp only
  split
  · rfl
  · split <;> (rename_i hrender; rw [hrender])

/-- While the outcome of a transaction is open, a session executes nothing. -/
theorem run_unresolved (h : database.pager.transactionState.isUnresolved = true) :
    (run engine database pendingInput input).executed = [] ∧
      (run engine database pendingInput input).database = database := by
  induction hn : input.length using Nat.strong_induction_on generalizing pendingInput input with
  | _ n ih =>
    subst hn
    have hexecute (sql : String) :
        Database.execute engine sql database = ([.failed Database.unresolvedStatus], database) :=
      if_pos h
    have hexecuted (sql : String) : Database.executed engine sql database = [] := if_pos h
    have hsubmitted (sql line : String) (rest : List String)
        (hlength : rest.length < input.length) :
        (submitted engine database sql line rest).executed = [] ∧
          (submitted engine database sql line rest).database = database := by
      rw [submitted, hexecute, hexecuted]
      cases hrender : renderResults [ExecutionResult.failed Database.unresolvedStatus] rest with
      | none => exact ⟨rfl, rfl⟩
      | some rest' =>
        exact ih _ (Nat.lt_of_le_of_lt (length_renderResults hrender) hlength) rfl
    cases input with
    | nil => rw [run_nil]; exact ⟨rfl, rfl⟩
    | cons line input =>
      have hlength : input.length < (line :: input).length := Nat.lt_succ_self _
      cases haction : action pendingInput line with
      | skip => rw [run_skip haction]; exact ih _ hlength rfl
      | exit => rw [run_exit haction]; exact ⟨rfl, rfl⟩
      | submit => rw [run_submit haction]; exact hsubmitted _ _ _ hlength
      | add =>
        rw [run_add haction, hexecute, hexecuted]
        exact hsubmitted _ _ _ hlength

end Rounds

/-! ## Sessions -/

/-- Lines, each with a line break behind it. -/
def joined : List String → String
  | [] => ""
  | line :: lines => line ++ "\n" ++ joined lines

/-- No statement of the session has failed: those that were executed succeeded, and
there is no open outcome, which would keep the others from being executed. -/
structure Transcript.NoFailure (session : Transcript Catalog Statement Row) : Prop where
  succeeded : ∀ entry ∈ session.executed, entry.2.status = .ok ()
  resolved : session.database.pager.transactionState.isUnresolved = false

/-- The outcome was not open at the start either. -/
theorem Transcript.NoFailure.opened {engine : Engine Catalog Statement BoundStatement Row}
    {database : Database Catalog} {pendingInput : String} {input : List String}
    {session : Transcript Catalog Statement Row} (h : session.NoFailure)
    (hsession : run engine database pendingInput input = session) :
    database.pager.transactionState.isUnresolved = false := by
  cases hunresolved : database.pager.transactionState.isUnresolved with
  | false => rfl
  | true =>
    have hdatabase : session.database = database := hsession ▸ (run_unresolved hunresolved).2
    rw [← hunresolved, ← hdatabase]
    exact h.resolved

/-- No command begins a text that the lexer accepts. -/
theorem statementsOf_point (text : List Char) (rest : String) :
    ∃ status, statementsOf (String.ofList ('.' :: text) ++ rest) = .error status := by
  refine ⟨Lexer.lexerError ⟨1, 1⟩ "unexpected character '.'", ?_⟩
  rw [statementsOf, Lexer.tokenize, String.toList_append, String.toList_ofList]
  rfl

theorem statementsOf_empty : statementsOf "" = .ok [] := by decide

theorem joined_cons (pendingInput line : String) (lines : List String) :
    pendingInput ++ joined (line :: lines) = pendingInput ++ line ++ "\n" ++ joined lines := by
  rw [joined, String.append_assoc, String.append_assoc, String.append_assoc]

theorem toList_line (pendingInput line : String) :
    (pendingInput ++ line ++ "\n").toList = (pendingInput ++ line).toList ++ ['\n'] := by
  rw [String.toList_append]
  rfl

/-- Only lines that are blank or commands are not added to what is pending. -/
theorem action_eq_add {pendingInput line rest : String} {statements : List Sql.Statement}
    (hblank : isBlank line = false)
    (hstatements : statementsOf (pendingInput ++ (line ++ "\n" ++ rest)) = .ok statements) :
    action pendingInput line = .add := by
  rw [action, hblank]
  cases hempty : pendingInput.isEmpty with
  | false => rfl
  | true =>
    have hpending : pendingInput = "" := String.isEmpty_iff.mp hempty
    rw [hpending, String.empty_append, String.append_assoc] at hstatements
    have hcommand (command : List Char) (h : line = String.ofList ('.' :: command)) : False := by
      obtain ⟨status, herror⟩ := statementsOf_point command ("\n" ++ rest)
      rw [h, herror] at hstatements
      cases hstatements
    have hhelp : line ≠ helpCommand := fun h => hcommand "help".toList (h.trans rfl)
    have hexit : line ≠ exitCommand := fun h => hcommand "exit".toList (h.trans rfl)
    simp only [if_neg hhelp, if_neg hexit]
    rfl

/-- Behind the replies that a result asks for, the input is as it was. -/
theorem renderRowSet_append {rows : Nat} {replies rest : List String}
    (h : renderRowSet rows replies = some rest) (input : List String) :
    renderRowSet rows (replies ++ input) = some (rest ++ input) := by
  induction replies generalizing rows with
  | nil =>
    rw [renderRowSet] at h
    split at h
    swap
    · cases h
    rename_i hrows
    obtain rfl := Option.some.inj h
    cases input with
    | nil => rw [List.nil_append, renderRowSet, if_pos hrows]
    | cons line input => rw [List.nil_append, renderRowSet, if_pos hrows]
  | cons reply replies ih =>
    rw [renderRowSet] at h
    rw [List.cons_append, renderRowSet]
    split at h
    · rename_i hrows
      obtain rfl := Option.some.inj h
      rw [if_pos hrows, List.cons_append]
    · rename_i hrows
      rw [if_neg hrows]
      split at h
      · rename_i hempty
        rw [if_pos hempty]
        exact ih h
      · rename_i hempty
        obtain rfl := Option.some.inj h
        rw [if_neg hempty]

theorem renderResults_append {results : List (ExecutionResult Row)} {replies rest : List String}
    (h : renderResults results replies = some rest) (input : List String) :
    renderResults results (replies ++ input) = some (rest ++ input) := by
  induction results generalizing replies with
  | nil =>
    obtain rfl := Option.some.inj h
    rfl
  | cons result results ih =>
    rw [renderResults] at h ⊢
    split at h
    · split at h
      · cases h
      · rename_i hrows
        rw [renderRowSet_append hrows input]
        exact ih h
    · exact ih h

/-- A user who stops the pager whenever it asks sees the end of the results. -/
theorem exists_replies (results : List (ExecutionResult Row)) :
    ∃ replies, renderResults results replies = some [] := by
  have hrows (rows : Nat) : ∃ replies, renderRowSet rows replies = some [] := by
    by_cases h : rows ≤ pageSize
    · exact ⟨[], by rw [renderRowSet, if_pos h]⟩
    · exact ⟨["q"], by rw [renderRowSet, if_neg h, if_neg (by decide)]⟩
  induction results with
  | nil => exact ⟨[], rfl⟩
  | cons result results ih =>
    obtain ⟨replies, hreplies⟩ := ih
    cases hstatus : result.status with
    | error status => exact ⟨replies, by rw [renderResults, hstatus]; exact hreplies⟩
    | ok _ =>
      cases hset : result.rowSet with
      | none => exact ⟨replies, by rw [renderResults, hstatus, hset]; exact hreplies⟩
      | some rowSet =>
        obtain ⟨first, hfirst⟩ := hrows rowSet.rows.length
        refine ⟨first ++ replies, ?_⟩
        rw [renderResults, hstatus, hset]
        dsimp only
        rw [renderRowSet_append hfirst replies]
        exact hreplies

/-- The input of a user who types the lines.  Whenever they complete a text, the user replies
to the pager as often as the results of its statements ask. -/
inductive Typed (engine : Engine Catalog Statement BoundStatement Row) :
    Database Catalog → String → List String → List String → Prop
  | done {database : Database Catalog} {pendingInput : String} :
    Typed engine database pendingInput [] []
  | incomplete {database : Database Catalog} {pendingInput line message : String}
    {lines input : List String}
    (h : engine.parse (pendingInput ++ line ++ "\n") = .error (.IncompleteInput message))
    (hrest : Typed engine database (pendingInput ++ line ++ "\n") lines input) :
    Typed engine database pendingInput (line :: lines) (line :: input)
  | complete {database : Database Catalog} {pendingInput line : String}
    {statements : List Statement} {lines replies input : List String}
    (h : engine.parse (pendingInput ++ line ++ "\n") = .ok statements)
    (hreplies : renderResults (Database.executeStatements engine database statements).1 replies =
      some [])
    (hrest : Typed engine (Database.executeStatements engine database statements).2 "" lines
      input) :
    Typed engine database pendingInput (line :: lines) (line :: (replies ++ input))

section Sessions

variable {bind : Catalog → Sql.Statement → Result BoundStatement}
  {execute : BoundStatement → Database Catalog → ExecutionResult Row × Database Catalog}

theorem needsMoreInput_incomplete (message : String) :
    needsMoreInput [(.failed (.IncompleteInput message) : ExecutionResult Row)] = true := rfl

theorem needsMoreInput_of_succeed {results : List (ExecutionResult Row)}
    (h : Database.Succeed results) : needsMoreInput results = false := by
  unfold needsMoreInput
  split
  · rename_i result
    rw [h result (List.mem_singleton_self _)]
  · rfl

/-- Lines that complete what is pending to an accepted text can be typed. -/
theorem exists_typed {database : Database Catalog} {pendingInput : String} {lines : List String}
    {statements : List Sql.Statement}
    (hstatements : statementsOf (pendingInput ++ joined lines) = .ok statements) :
    ∃ input, Typed (sqlEngine bind execute) database pendingInput lines input := by
  induction lines generalizing database pendingInput statements with
  | nil => exact ⟨[], .done⟩
  | cons line lines ih =>
    rw [joined_cons] at hstatements
    obtain ⟨message, hmessage⟩ | ⟨first, second, k, hfirst, hsecond, rfl⟩ :=
      statementsOf_append (toList_line pendingInput line) hstatements
    · obtain ⟨input, hinput⟩ := ih hstatements
      exact ⟨_, .incomplete hmessage hinput⟩
    · obtain ⟨replies, hreplies⟩ := exists_replies
        (Database.executeStatements (sqlEngine bind execute) database first).1
      rw [← String.empty_append (s := joined lines)] at hsecond
      obtain ⟨input, hinput⟩ := ih hsecond
      exact ⟨_, .complete hfirst hreplies hinput⟩

/-- A session whose lines complete what is pending to an accepted text reads them all and
executes the statements of the text. -/
theorem run_text {database : Database Catalog} {pendingInput : String} {lines input : List String}
    {statements : List Sql.Statement} {session : Transcript Catalog Sql.Statement Row}
    (htyped : Typed (sqlEngine bind execute) database pendingInput lines input)
    (hsession : run (sqlEngine bind execute) database pendingInput input = session)
    (hstatements : statementsOf (pendingInput ++ joined lines) = .ok statements)
    (hblank : ∀ line ∈ lines, isBlank line = false)
    (hempty : lines = [] → pendingInput = "") (hok : session.NoFailure) :
    session.lines = lines ∧
      session.executed.map (·.1.withoutLocations) = statements.map Sql.Statement.withoutLocations ∧
      ((sqlEngine bind execute).IgnoresLocations →
        Database.executeStatements (sqlEngine bind execute) database statements =
          (session.executed.map (·.2), session.database)) := by
  induction htyped generalizing statements session with
  | done =>
    rw [run_nil] at hsession
    subst hsession
    rw [hempty rfl] at hstatements
    obtain rfl := Except.ok.inj (statementsOf_empty.symm.trans hstatements)
    exact ⟨rfl, rfl, fun _ => rfl⟩
  | @incomplete database pendingInput line message lines input hparse hrest ih =>
    have hopen := hok.opened hsession
    have hpending : statementsOf (pendingInput ++ line ++ "\n") =
      .error (.IncompleteInput message) := hparse
    rw [run_add (action_eq_add (hblank line (List.mem_cons_self ..)) hstatements)] at hsession
    rw [joined_cons] at hstatements
    -- the lines read so far are not complete, and nothing has happened
    obtain ⟨hdatabase, hexecuted, hresults⟩ := Database.execute_incomplete database hparse rfl
    rw [hresults hopen, hdatabase, hexecuted, if_pos (needsMoreInput_incomplete _)] at hsession
    generalize hrun : run (sqlEngine bind execute) database (pendingInput ++ line ++ "\n") input =
      rest at hsession
    subst hsession
    have hmore : lines = [] → pendingInput ++ line ++ "\n" = "" := by
      intro hnil
      rw [hnil, joined, String.append_empty, hpending] at hstatements
      cases hstatements
    obtain ⟨hlines, hexecutes⟩ := ih hrun hstatements
      (fun line' hmem => hblank line' (List.mem_cons_of_mem _ hmem)) hmore
      ⟨hok.succeeded, hok.resolved⟩
    exact ⟨congrArg (line :: ·) hlines, hexecutes⟩
  | @complete database pendingInput line first lines replies input hparse hreplies hrest ih =>
    have hopen := hok.opened hsession
    have hpending : statementsOf (pendingInput ++ line ++ "\n") = .ok first := hparse
    rw [run_add (action_eq_add (hblank line (List.mem_cons_self ..)) hstatements)] at hsession
    rw [joined_cons] at hstatements
    obtain ⟨message, hmessage⟩ | ⟨first', second, k, hfirst, hsecond, rfl⟩ :=
      statementsOf_append (toList_line pendingInput line) hstatements
    · rw [hpending] at hmessage
      cases hmessage
    obtain rfl := Except.ok.inj (hfirst.symm.trans hpending)
    obtain ⟨hexecute, hexecuted⟩ := Database.execute_complete hparse hopen
    have hrender := renderResults_append hreplies input
    rw [List.nil_append] at hrender
    rw [hexecute, hexecuted, submitted, hexecute, hexecuted, hrender] at hsession
    dsimp only at hsession
    generalize hrun : run (sqlEngine bind execute)
      (Database.executeStatements (sqlEngine bind execute) database first').2 "" input =
        rest at hsession
    generalize hresults : Database.executeStatements (sqlEngine bind execute) database first' =
      results at *
    have hsucceed : Database.Succeed results.1 := by
      rw [← hresults]
      refine Database.succeed_of_zip fun entry hentry => hok.succeeded entry ?_
      rw [hresults] at hentry
      rw [← hsession]
      split
      · exact List.mem_append_left _ hentry
      · exact List.mem_append_left _ hentry
    rw [if_neg (by rw [needsMoreInput_of_succeed hsucceed]; exact Bool.false_ne_true)] at hsession
    subst hsession
    have hlengths : results.1.length = first'.length := by
      rw [← hresults] at hsucceed ⊢
      exact Database.length_executeStatements hsucceed
    have hstatements₁ : (first'.zip results.1).map (·.1.withoutLocations) =
        first'.map Sql.Statement.withoutLocations := by
      have hfst := List.map_fst_zip (Nat.le_of_eq hlengths.symm)
      calc
        _ = ((first'.zip results.1).map Prod.fst).map Sql.Statement.withoutLocations :=
          List.map_map.symm
        _ = _ := by rw [hfst]
    have hresults₁ : (first'.zip results.1).map (·.2) = results.1 :=
      List.map_snd_zip (Nat.le_of_eq hlengths)
    have hwithout : (second.map (Sql.Statement.relocate (Lexer.down k))).map
        Sql.Statement.withoutLocations = second.map Sql.Statement.withoutLocations := by
      rw [List.map_map]
      exact List.map_congr_left fun s _ => s.withoutLocations_relocate _
    obtain ⟨hlines, hexecuted', hsame⟩ := ih hrun (by rw [String.empty_append]; exact hsecond)
      (fun line' hmem => hblank line' (List.mem_cons_of_mem _ hmem)) (fun _ => rfl)
      ⟨fun entry hentry => hok.succeeded entry (List.mem_append_right _ hentry), hok.resolved⟩
    refine ⟨congrArg (line :: ·) hlines, ?_, fun hignores => ?_⟩
    · rw [Transcript.after, List.map_append, List.map_append, hstatements₁, hwithout, hexecuted']
    · have hok₂ : Database.Succeed (rest.executed.map (·.2)) := by
        intro result hmem
        obtain ⟨entry, hentry, rfl⟩ := List.mem_map.mp hmem
        exact hok.succeeded entry (List.mem_append_right _ hentry)
      rw [Database.executeStatements_append (by rw [hresults]; exact hsucceed), hresults,
        hignores.executeStatements _ (by rw [hsame hignores]; exact hok₂), hsame hignores,
        Transcript.after, List.map_append, hresults₁]

/-- The verdict that an input is not complete can be relied on: wrong tokens stay wrong,
the beginning of an accepted input is accepted or not complete, and accepted inputs can
be put together.  What is not complete has no effect.  So the lines of an accepted text can be
typed, and a session in which they are reads them all and executes the statements of the text,
as the whole text does. -/
theorem incomplete_consistent (bind : Catalog → Sql.Statement → Result BoundStatement)
    (execute : BoundStatement → Database Catalog → ExecutionResult Row × Database Catalog) :
    (∀ tokens last message, Parser.Lexed tokens → last.kind = .endOfInput →
      Parser.parse (tokens ++ [last]) = .error (.status (.ParseError message)) →
      ∀ more last' statements, Parser.parse (tokens ++ more ++ [last']) ≠ .ok statements) ∧
    (∀ tokens last more last' statements, Parser.Lexed tokens → last.kind = .endOfInput →
      Parser.parse (tokens ++ more ++ [last']) = .ok statements →
      (∀ first, Parser.parse (tokens ++ [last]) ≠ .ok first) →
      ∃ message, Parser.parse (tokens ++ [last]) =
        .error (.status (.IncompleteInput message))) ∧
    (∀ tokens last more last' first second, Parser.Lexed tokens → last.kind = .endOfInput →
      Parser.Lexed more → last'.kind = .endOfInput →
      Parser.parse (tokens ++ [last]) = .ok first → Parser.parse (more ++ [last']) = .ok second →
      Parser.parse (tokens ++ more ++ [last']) = .ok (first ++ second)) ∧
    (∀ sql status database, statementsOf sql = .error status → status.code = .incompleteInput →
      Database.executed (sqlEngine bind execute) sql database = [] ∧
      (Database.execute (sqlEngine bind execute) sql database).2 = database) ∧
    ∀ text lines statements database, statementsOf text = .ok statements →
      (text = joined lines ∨ text ++ "\n" = joined lines) →
      (∀ line ∈ lines, isBlank line = false) →
      (∃ input, Typed (sqlEngine bind execute) database "" lines input) ∧
      ∀ input session, Typed (sqlEngine bind execute) database "" lines input →
      run (sqlEngine bind execute) database "" input = session →
      (session.NoFailure → session.lines = lines ∧
        session.executed.map (·.1.withoutLocations) =
          statements.map Sql.Statement.withoutLocations) ∧
      (Database.Succeed (Database.execute (sqlEngine bind execute) text database).1 →
        (Database.executed (sqlEngine bind execute) text database).map (·.1) = statements) ∧
      ((sqlEngine bind execute).IgnoresLocations → session.NoFailure →
        Database.execute (sqlEngine bind execute) text database =
          (session.executed.map (·.2), session.database)) ∧
      (database.pager.transactionState.isUnresolved = true → session.executed = [] ∧
        Database.executed (sqlEngine bind execute) text database = []) := by
  refine ⟨?_, ?_, ?_, ?_, ?_⟩
  · intro tokens last message htokens hlast h
    exact Parser.parseError_final htokens hlast h
  · intro tokens last more last' statements htokens hlast h hnot
    obtain ⟨first, hfirst⟩ | hincomplete := Parser.parse_prefix htokens hlast h
    · exact (hnot first hfirst).elim
    · exact hincomplete
  · intro tokens last more last' first second htokens hlast hmore hlast' hfirst hsecond
    exact Parser.parse_append htokens hmore hlast hlast' hfirst hsecond
  · intro sql status database h hcode
    obtain ⟨hdatabase, hexecuted, -⟩ := Database.execute_incomplete database
      (show (sqlEngine bind execute).parse sql = _ from h) hcode
    exact ⟨hexecuted, hdatabase⟩
  · intro text lines statements database htext hjoined hblank
    have hwhole : statementsOf ("" ++ joined lines) = .ok statements := by
      rw [String.empty_append]
      cases hjoined with
      | inl h => exact h ▸ htext
      | inr h => exact h ▸ statementsOf_newline htext
    refine ⟨exists_typed hwhole, fun input session htyped hsession => ?_⟩
    have hcomplete (hopen : database.pager.transactionState.isUnresolved = false) :=
      Database.execute_complete (show (sqlEngine bind execute).parse text = _ from htext) hopen
    have hrun (hok : session.NoFailure) :=
      run_text htyped hsession hwhole hblank (fun _ => rfl) hok
    refine ⟨fun hok => ⟨(hrun hok).1, (hrun hok).2.1⟩, fun hsucceed => ?_,
      fun hignores hok => ?_, fun hunresolved => ?_⟩
    · cases hopen : database.pager.transactionState.isUnresolved with
      | true =>
        rw [Database.execute, hopen] at hsucceed
        cases hsucceed _ (List.mem_singleton_self _)
      | false =>
        obtain ⟨hexecute, hexecuted⟩ := hcomplete hopen
        rw [hexecute] at hsucceed
        rw [hexecuted]
        exact List.map_fst_zip (Nat.le_of_eq (Database.length_executeStatements hsucceed).symm)
    · rw [(hcomplete (hok.opened hsession)).1]
      exact (hrun hok).2.2 hignores
    · rw [← hsession]
      exact ⟨(run_unresolved hunresolved).1, if_pos hunresolved⟩

/-- A result with a row more than a page. -/
def longResult : ExecutionResult Unit := ⟨.ok (), none, some ⟨[], List.replicate 101 ()⟩, none⟩

/-- An engine for which every statement has this result. -/
def longEngine : Engine Unit Sql.Statement Sql.Statement Unit :=
  sqlEngine (fun _ statement => .ok statement) fun _ database => (longResult, database)

/-- The pager asks for one reply. -/
theorem renderResults_long (reply : String) (input : List String) :
    renderResults [longResult] (reply :: input) = some input := by
  have hrows : longResult.rowSet = some ⟨[], List.replicate 101 ()⟩ := rfl
  have hstatus : longResult.status = .ok () := rfl
  rw [renderResults, hstatus, hrows]
  dsimp only
  rw [List.length_replicate, renderRowSet, if_neg (by decide)]
  cases hreply : reply.isEmpty with
  | true =>
    cases input with
    | nil => rfl
    | cons line input => rfl
  | false => rfl

/-- A statement over two lines is executed once, when it is complete, and then another one.
The user looks at all rows of the first and stops the pager at the second. -/
theorem incomplete_consistent_small : ∃ (database : Database Unit)
    (session : Transcript Unit Sql.Statement Unit),
    run longEngine database "" ["BEGIN", ";", "", "COMMIT;", "q"] = session ∧
      session.lines = ["BEGIN", ";", "COMMIT;"] ∧
      session.executed.map (·.1.withoutLocations) = [.begin ⟨0, 0⟩, .commit ⟨0, 0⟩] := by
  obtain ⟨pager, -, hshows⟩ := Storage.Pager.createEmpty_eq "db" (show 0 < 1 by decide) 7
  have hstatus : pager.transactionState.status = .inactive :=
    congrArg Storage.FlatPager.status hshows.abs
  have hopen : pager.transactionState.isUnresolved = false := by
    rw [Storage.TransactionState.isUnresolved, hstatus]
    rfl
  have hfailed : pager.transactionState.isFailed = false := by
    rw [Storage.TransactionState.isFailed, hstatus]
    rfl
  have hexecute (statement : Sql.Statement) :
      Database.executeStatements longEngine ⟨pager, ()⟩ [statement] =
        ([longResult], ⟨pager, ()⟩) := by
    rw [Database.executeStatements, Database.executeStatement, hopen, hfailed]
    rfl
  have hfirst : statementsOf ("" ++ "BEGIN" ++ "\n") = .error
      (.IncompleteInput "SQL error at line 2, column 1: expected ';' after statement") := by
    decide +kernel
  have hsecond : statementsOf ("" ++ "BEGIN" ++ "\n" ++ ";" ++ "\n") = .ok [.begin ⟨1, 1⟩] := by
    decide +kernel
  have hthird : statementsOf ("" ++ "COMMIT;" ++ "\n") = .ok [.commit ⟨1, 1⟩] := by decide +kernel
  have hwhole : statementsOf "BEGIN\n;\nCOMMIT;\n" = .ok [.begin ⟨1, 1⟩, .commit ⟨3, 1⟩] := by
    decide +kernel
  have hresult : longResult.status = .ok () := rfl
  have hmore : needsMoreInput [longResult] = false := rfl
  have hconsistent := (incomplete_consistent (fun (_ : Unit) statement => .ok statement)
    fun (_ : Sql.Statement) database => (longResult, database)).2.2.2.2
    "BEGIN\n;\nCOMMIT;\n" ["BEGIN", ";", "COMMIT;"]
  have hparse (sql : String) : longEngine.parse sql = statementsOf sql := rfl
  have hsame : sqlEngine (fun (_ : Unit) statement => .ok statement)
    (fun (_ : Sql.Statement) database => (longResult, database)) = longEngine := rfl
  rw [hsame] at hconsistent
  generalize longEngine = engine at *
  have hreplies (statement : Sql.Statement) (reply : String) : renderResults
      (Database.executeStatements engine ⟨pager, ()⟩ [statement]).1 [reply] = some [] := by
    rw [hexecute]
    exact renderResults_long reply []
  have htyped : Typed engine ⟨pager, ()⟩ "" ["BEGIN", ";", "COMMIT;"]
      ["BEGIN", ";", "", "COMMIT;", "q"] := by
    refine .incomplete ((hparse _).trans hfirst) (.complete ((hparse _).trans hsecond)
      (hreplies _ "") ?_)
    rw [hexecute]
    exact .complete ((hparse _).trans hthird) (hreplies _ "q") .done
  have hrun : run engine ⟨pager, ()⟩ "" ["BEGIN", ";", "", "COMMIT;", "q"] =
      ⟨["BEGIN", ";", "COMMIT;"], [(.begin ⟨1, 1⟩, longResult), (.commit ⟨1, 1⟩, longResult)],
        ⟨pager, ()⟩⟩ := by
    obtain ⟨hdatabase, hexecuted, hresults⟩ := Database.execute_incomplete
      ⟨pager, ()⟩ ((hparse _).trans hfirst) rfl
    obtain ⟨hexecute₁, hexecuted₁⟩ := Database.execute_complete ((hparse _).trans hsecond)
      (show (⟨pager, ()⟩ : Database Unit).pager.transactionState.isUnresolved = false from hopen)
    obtain ⟨hexecute₂, hexecuted₂⟩ := Database.execute_complete ((hparse _).trans hthird)
      (show (⟨pager, ()⟩ : Database Unit).pager.transactionState.isUnresolved = false from hopen)
    rw [run_add (by decide), hresults hopen, hdatabase, hexecuted,
      if_pos (needsMoreInput_incomplete _), run_add (by decide), hexecute₁, hexecute, hmore,
      if_neg Bool.false_ne_true, submitted, hexecute₁, hexecuted₁, hexecute, renderResults_long]
    dsimp only
    rw [run_add (by decide), hexecute₂, hexecute, hmore, if_neg Bool.false_ne_true, submitted,
      hexecute₂, hexecuted₂, hexecute, renderResults_long]
    dsimp only
    rw [run_nil]
    rfl
  obtain ⟨hlines, hexecuted⟩ := ((hconsistent _ _ hwhole (.inl rfl) (by decide)).2 _ _ htyped hrun).1
    ⟨List.forall_mem_cons.mpr ⟨hresult, List.forall_mem_singleton.mpr hresult⟩, hopen⟩
  exact ⟨_, _, hrun, hlines, hexecuted⟩

end Sessions

end Repl

end DanDB.Cli
