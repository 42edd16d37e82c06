import DanDB.Sql.Lexer
import DanDB.Sql.ParserGrammar

/-!
# Texts and their statements

The statements of a text are those that the lexer and the parser find in it.  A text
can be cut at a line break: when the whole is accepted, the first part either asks
for more or has the first statements, and then the second part has the others.
-/

namespace DanDB.Sql

open DanDB.Core

namespace Parser

variable {tokens more : List Token} {last last' : Token}

theorem parse_complete {statements : List Statement} (h : Grammar.statements tokens statements)
    (hlast : last.kind = .endOfInput) : parse (tokens ++ [last]) = .ok statements :=
  congrArg Prod.fst (reads_parseStatements.complete tokens statements last [] h
    (not_not.mpr hlast))

/-- No input that begins with wrong tokens is accepted. -/
theorem parseError_final (htokens : Lexed tokens) (hlast : last.kind = .endOfInput)
    {message : String} (h : parse (tokens ++ [last]) = .error (.status (.ParseError message)))
    (more : List Token) (last' : Token) (statements : List Statement) :
    parse (tokens ++ more ++ [last']) ≠ .ok statements := by
  obtain ⟨other, -, hparse⟩ | ⟨message', -, herror⟩ | ⟨message', hparse⟩ :=
    parse_cases htokens hlast
  · rw [h] at hparse
    cases hparse
  · rw [herror more last']
    nofun
  · rw [h] at hparse
    cases hparse

/-- The beginning of an accepted input is accepted or asks for more. -/
theorem parse_prefix (htokens : Lexed tokens) (hlast : last.kind = .endOfInput)
    {statements : List Statement} (h : parse (tokens ++ more ++ [last']) = .ok statements) :
    (∃ statements, parse (tokens ++ [last]) = .ok statements) ∨
      ∃ message, parse (tokens ++ [last]) = .error (.status (.IncompleteInput message)) := by
  obtain ⟨first, -, hparse⟩ | ⟨message, -, herror⟩ | hincomplete := parse_cases htokens hlast
  · exact .inl ⟨first, hparse⟩
  · rw [herror more last'] at h
    cases h
  · exact .inr hincomplete

/-- One accepted input behind another. -/
theorem parse_append (htokens : Lexed tokens) (hmore : Lexed more)
    (hlast : last.kind = .endOfInput) (hlast' : last'.kind = .endOfInput)
    {first second : List Statement} (hfirst : parse (tokens ++ [last]) = .ok first)
    (hsecond : parse (more ++ [last']) = .ok second) :
    parse (tokens ++ more ++ [last']) = .ok (first ++ second) := by
  have hword {tokens : List Token} {last : Token} {statements : List Statement}
      (htokens : Lexed tokens) (hlast : last.kind = .endOfInput)
      (h : parse (tokens ++ [last]) = .ok statements) : Grammar.statements tokens statements := by
    obtain ⟨other, hword, hparse⟩ | ⟨message, hparse, -⟩ | ⟨message, hparse⟩ :=
      parse_cases htokens hlast
    · rw [h] at hparse
      exact Except.ok.inj hparse ▸ hword
    · rw [h] at hparse
      cases hparse
    · rw [h] at hparse
      cases hparse
  exact parse_complete (Lang.many_append (hword htokens hlast hfirst)
    (hword hmore hlast' hsecond)) hlast'

theorem statements_cancel {first all : List Statement} (hfirst : Grammar.statements tokens first)
    (hall : Grammar.statements (tokens ++ more) all) :
    ∃ second, Grammar.statements more second ∧ all = first ++ second :=
  (statement_step.many_cancel (s := []) (fun _ _ h => List.singleton_inj.mp h)) hfirst hall

end Parser

/-- What the lexer and the parser make of a text.  The parser has no failure but a
status on what the lexer gives it. -/
def statementsOf (sql : String) : Result (List Statement) := do
  let tokens ← Lexer.tokenize sql
  match Parser.parse tokens with
  | .ok statements => return statements
  | .error (.status status) => throw status
  | .error _ => throw (.InternalError "unreachable")

section Texts

variable {sql a b : String} {tokens : List Token} {last : Token}
  {statements first second : List Statement}

/-- A text of some tokens is accepted, or wrong however it goes on, or not complete. -/
theorem statementsOf_cases (h : Lexer.tokenize sql = .ok (tokens ++ [last]))
    (hlast : last.kind = .endOfInput) (htokens : Parser.Lexed tokens) :
    (∃ statements, Grammar.statements tokens statements ∧ statementsOf sql = .ok statements) ∨
    ((∃ message, statementsOf sql = .error (.ParseError message)) ∧
      ∀ more statements, ¬Grammar.statements (tokens ++ more) statements) ∨
    ∃ message, statementsOf sql = .error (.IncompleteInput message) := by
  rw [statementsOf, h, ok_bind]
  obtain ⟨statements, hword, hparse⟩ | ⟨message, hparse, -⟩ | ⟨message, hparse⟩ :=
    Parser.parse_cases htokens hlast
  · exact .inl ⟨statements, hword, by rw [hparse]; rfl⟩
  · refine .inr (.inl ⟨⟨message, by rw [hparse]; rfl⟩, fun more statements hword => ?_⟩)
    refine Parser.parseError_final htokens hlast hparse more last statements ?_
    exact Parser.parse_complete hword hlast
  · exact .inr (.inr ⟨message, by rw [hparse]; rfl⟩)

theorem statementsOf_eq_ok (h : statementsOf sql = .ok statements) : ∃ tokens last,
    Lexer.tokenize sql = .ok (tokens ++ [last]) ∧ last.kind = .endOfInput ∧
      Parser.Lexed tokens ∧ Grammar.statements tokens statements := by
  obtain ⟨all, hall, -⟩ := bind_eq_ok.mp h
  obtain ⟨tokens, last, rfl, hlast, htokens⟩ := Lexer.tokenizeFrom_lexed hall
  refine ⟨tokens, last, hall, hlast, htokens, ?_⟩
  obtain ⟨other, hword, hok⟩ | ⟨⟨message, herror⟩, -⟩ | ⟨message, herror⟩ :=
    statementsOf_cases hall hlast htokens
  · rw [h] at hok
    exact Except.ok.inj hok ▸ hword
  · rw [h] at herror
    cases herror
  · rw [h] at herror
    cases herror

/-- A text is not changed by a line break behind it. -/
theorem statementsOf_newline (h : statementsOf sql = .ok statements) :
    statementsOf (sql ++ "\n") = .ok statements := by
  obtain ⟨tokens, last, htokenize, hlast, htokens, hword⟩ := statementsOf_eq_ok h
  have hwhole : ∃ last', last'.kind = .endOfInput ∧
      Lexer.tokenize (sql ++ "\n") = .ok (tokens ++ [last']) := by
    rw [Lexer.tokenize] at htokenize
    rw [Lexer.tokenize, String.toList_append]
    obtain ⟨tokens', ha, hab⟩ | ⟨message, ha⟩ | ⟨status, ha, -⟩ :=
      Lexer.tokenizeFrom_append ⟨1, 1⟩ (a := sql.toList) (b := "\n".toList)
        (.inr (.inr rfl)) (Nat.zero_le _)
    · rw [htokenize] at ha
      obtain ⟨rfl, -⟩ := List.append_inj' (Except.ok.inj ha) rfl
      exact ⟨_, rfl, hab⟩
    · rw [htokenize] at ha
      cases ha
    · rw [htokenize] at ha
      cases ha
  obtain ⟨last', hlast', hwhole⟩ := hwhole
  rw [statementsOf, hwhole, ok_bind, Parser.parse_complete hword hlast']
  rfl

/-- The first lines of an accepted text ask for more or have the first statements, and
the lines behind them have the others. -/
theorem statementsOf_append {line : List Char} (hline : a.toList = line ++ ['\n'])
    (h : statementsOf (a ++ b) = .ok statements) :
    (∃ message, statementsOf a = .error (.IncompleteInput message)) ∨
    ∃ first second lines, statementsOf a = .ok first ∧ statementsOf b = .ok second ∧
      statements = first ++ second.map (Statement.relocate (Lexer.down lines)) := by
  obtain ⟨tokens, last, htokenize, hlast, -, hword⟩ := statementsOf_eq_ok h
  rw [Lexer.tokenize, String.toList_append] at htokenize
  obtain ⟨tokens₁, ha, hab⟩ | ⟨message, ha⟩ | ⟨status, -, hab⟩ :=
    Lexer.tokenizeFrom_append ⟨1, 1⟩ (a := a.toList) (b := b.toList)
      (.inr (.inl ⟨line, hline⟩)) (Nat.zero_le _)
  · -- the tokens behind the cut, and those of the second part by itself
    obtain ⟨lines, hbehind⟩ : ∃ lines, Lexer.behind ⟨1, 1⟩ a.toList = Lexer.down lines ⟨1, 1⟩ := by
      rw [hline, Lexer.behind_concat]
      refine ⟨(Lexer.behind ⟨1, 1⟩ line).line, ?_⟩
      rw [Lexer.down, Nat.add_comm]
    rw [htokenize, hbehind] at hab
    cases hb : Lexer.tokenizeFrom 0 (Lexer.down lines ⟨1, 1⟩) b.toList with
    | error status =>
      rw [hb] at hab
      cases hab
    | ok all =>
      rw [hb] at hab
      obtain ⟨all', htokenizeB, rfl⟩ := Lexer.tokenizeFrom_down hb
      obtain ⟨tokens₂, last₂, rfl, hlast₂, htokens₂⟩ := Lexer.tokenizeFrom_lexed htokenizeB
      have hsplit : tokens = tokens₁ ++ tokens₂.map (Token.relocate (Lexer.down lines)) := by
        have heq := Except.ok.inj hab
        dsimp only at heq
        rw [List.map_append, ← List.append_assoc] at heq
        exact (List.append_inj' heq rfl).1
      subst hsplit
      obtain ⟨_, _, heq, hlast₁, htokens₁⟩ := Lexer.tokenizeFrom_lexed ha
      obtain ⟨rfl, hend⟩ := List.append_inj' heq rfl
      obtain rfl := List.singleton_inj.mp hend
      obtain ⟨first, hfirst, hok⟩ | ⟨-, hwrong⟩ | hincomplete :=
        statementsOf_cases ha hlast₁ htokens₁
      · obtain ⟨second, hsecond, rfl⟩ := Parser.statements_cancel hfirst hword
        have hup := Grammar.statements_relocates (f := Lexer.up lines) _ _ hsecond
        rw [Lexer.up_down] at hup
        refine .inr ⟨first, second.map (Statement.relocate (Lexer.up lines)), lines, hok, ?_, ?_⟩
        · rw [statementsOf, Lexer.tokenize, htokenizeB, ok_bind, Parser.parse_complete hup hlast₂]
          rfl
        · have hdown := Grammar.statements_relocates (f := Lexer.down lines) _ _ hup
          have hboth := (Parser.parse_complete hsecond hlast).symm.trans
            (Parser.parse_complete hdown hlast)
          exact congrArg (first ++ ·) (Except.ok.inj hboth)
      · exact (hwrong _ _ hword).elim
      · exact .inl hincomplete
  · refine .inl ⟨message, ?_⟩
    rw [statementsOf, Lexer.tokenize, ha]
    rfl
  · rw [htokenize] at hab
    cases hab

end Texts

end DanDB.Sql
