import DanDB.Core.Charconv
import DanDB.Lib.Proc
import DanDB.Sql.Ast

/-!
# The parser

A parser has before it the tokens that it has not consumed, of which the first is
the current one and the last the end of the input.  `tokens_` is never changed, so
these are all there is to its state.
-/

namespace DanDB.Sql

open DanDB.Core Record

inductive Parser.Failure where
  | status (status : Status)
  /-- A look at a token behind the last one. -/
  | outOfBounds
  /-- A loop that has gone on for longer than there are tokens. -/
  | unfinished
deriving DecidableEq

abbrev Parser := Proc Parser.Failure (List Token)

namespace Parser

def errorText (location : SourceLocation) (message : String) : String :=
  s!"SQL error at line {location.line}, column {location.column}: {message}"

/-- `make_parser_error` -/
def parserError (location : SourceLocation) (message : String) : Failure :=
  .status (.ParseError (errorText location message))

/-- `make_incomplete_input_error` -/
def incompleteInputError (location : SourceLocation) (message : String) : Failure :=
  .status (.IncompleteInput (errorText location message))

def currentToken : Parser Token := do
  match ← Proc.get with
  | token :: _ => return token
  | [] => Proc.fail .outOfBounds

/-- `tokens_[current_pos_+1]` -/
def nextToken : Parser Token := do
  match ← Proc.get with
  | _ :: token :: _ => return token
  | _ => Proc.fail .outOfBounds

def consumeToken : Parser Token := do
  let token ← currentToken
  Proc.modify List.tail
  return token

/-- `if(is_at_end()) return make_incomplete_input_error(...)`, and a parser error
otherwise. -/
def unexpected {α : Type} (token : Token) (message : String) : Parser α :=
  Proc.fail (if token.kind = .endOfInput then incompleteInputError token.location message
    else parserError token.location message)

/-- `expect_kind`, with the token it consumes. -/
def expectKind (expectedKind : TokenKind) (message : String) : Parser Token := do
  let token ← currentToken
  if token.kind ≠ expectedKind then
    unexpected token message
  else
    consumeToken

def matchKind (expectedKind : TokenKind) : Parser Bool := do
  let token ← currentToken
  if token.kind ≠ expectedKind then
    return false
  else
    let _ ← consumeToken
    return true

/-- A loop that goes on as long as the current token says so. -/
def whileToken {σ : Type} (continues : TokenKind → Bool) (step : σ → Parser σ) :
    Nat → σ → Parser σ
  | 0, _ => Proc.fail .unfinished
  | fuel + 1, state => do
    let token ← currentToken
    if continues token.kind then
      let state ← step state
      whileToken continues step fuel state
    else
      return state

/-- The loop with a round for each token, and one more. -/
def repeatWhile {σ : Type} (continues : TokenKind → Bool) (step : σ → Parser σ) (state : σ) :
    Parser σ := do
  let tokens ← Proc.get
  whileToken continues step (tokens.length + 1) state

/-- One or more items separated by commas. -/
def items {α : Type} (first item : Parser α) : Parser (List α) := do
  let value ← first
  repeatWhile (· = .comma) (fun values => do
    let _ ← consumeToken
    let value ← item
    return values ++ [value]) [value]

/-- A name, as an `Identifier` of the token. -/
def identifier (message : String) : Parser Identifier := do
  let token ← expectKind .identifier message
  return ⟨token.lexeme, token.location⟩

/-! ## Column definitions -/

/-- `static_cast<std::size_t>(ch-'0')` -/
def digitValue (ch : Char) : UInt64 := UInt64.ofNat ch.toNat - 48

/-- The loop over the digits of a capacity; there is none when it is too large. -/
def capacityValue (capacity : UInt64) : List Char → Option UInt64
  | [] => some capacity
  | ch :: digits =>
    let digit := digitValue ch
    if capacity > (0xFFFFFFFFFFFFFFFF - digit) / 10 then none
    else capacityValue (capacity * 10 + digit) digits

/-- What the capacity token of a string type says. -/
def stringType (capacityToken : Token) : Parser LogicalType :=
  match capacityValue 0 capacityToken.lexeme.toList with
  | none => Proc.fail (parserError capacityToken.location "string capacity is too large")
  | some capacity =>
    match LogicalType.ofCapacity capacity with
    | .error status => Proc.fail (parserError capacityToken.location status.message)
    | .ok logicalType => return logicalType

/-- The case of `STRING` in `parse_column_type`. -/
def parseStringType : Parser ColumnType := do
  let typeToken ← consumeToken
  let _ ← expectKind .leftParen "expected '(' after 'STRING'"
  let capacityToken ← expectKind .integerLiteral "expected capacity inside 'STRING(...)'"
  let _ ← expectKind .rightParen "expected ')' after string capacity"
  let logicalType ← stringType capacityToken
  return ⟨logicalType, typeToken.location⟩

/-- The type that a keyword names by itself. -/
def simpleType : TokenKind → Option LogicalType
  | .int8 => some .int8
  | .int16 => some .int16
  | .int32 => some .int32
  | .int64 => some .int64
  | .double => some .float64
  | .bool => some .boolean
  | _ => none

def parseColumnType : Parser ColumnType := do
  let token ← currentToken
  match simpleType token.kind with
  | some logicalType =>
    let typeToken ← consumeToken
    return ⟨logicalType, typeToken.location⟩
  | none =>
    if token.kind = .string then parseStringType
    else unexpected token "expected column type"

/-- Whether `parse_column_constraints` has a next constraint. -/
def startsConstraint : TokenKind → Bool
  | .primary | .unique | .not => true
  | _ => false

/-- One round of the loop of `parse_column_constraints`. -/
def parseColumnConstraint (constraints : ColumnConstraints) : Parser ColumnConstraints := do
  let token ← consumeToken
  match token.kind with
  | .primary => do
    let _ ← expectKind .key "expected 'KEY' after 'PRIMARY'"
    return { constraints with primaryKey := true }
  | .unique => return { constraints with unique := true }
  | _ => do
    let _ ← expectKind .nullLiteral "expected 'NULL' after 'NOT'"
    return { constraints with notNull := true }

def parseColumnConstraints : Parser ColumnConstraints :=
  repeatWhile startsConstraint parseColumnConstraint ⟨false, false, false⟩

def parseColumnDefinition : Parser ColumnDefinition := do
  let name ← identifier "expected identifier"
  let type ← parseColumnType
  let constraints ← parseColumnConstraints
  return ⟨name, type, constraints, name.location⟩

def parseCreateTableStatement : Parser CreateTableStatement := do
  let createToken ← expectKind .create "expected 'CREATE'"
  let _ ← expectKind .table "expected 'TABLE' after 'CREATE'"
  let tableName ← identifier "expected table name after 'CREATE TABLE'"
  let _ ← expectKind .leftParen "expected '(' after table name"
  let columns ← items parseColumnDefinition parseColumnDefinition
  let _ ← expectKind .rightParen "expected ')' after column definitions"
  return ⟨tableName, columns, createToken.location⟩

/-! ## Literals and predicates -/

def parseIntegerLiteral (lexeme : String) (location : SourceLocation) : Parser Int64 :=
  match fromCharsInt64 lexeme.toList with
  | .resultOutOfRange => Proc.fail (parserError location "integer literal is out of range")
  | .parsed value [] => return value
  | _ => Proc.fail (parserError location "invalid integer literal")

def parseDoubleLiteral (lexeme : String) (location : SourceLocation) : Parser UInt64 :=
  match fromCharsFloat64 lexeme.toList with
  | .resultOutOfRange => Proc.fail (parserError location "double literal is out of range")
  | .parsed value [] => return value
  | _ => Proc.fail (parserError location "invalid double literal")

def parseLiteral : Parser LiteralExpression := do
  let token ← currentToken
  match token.kind with
  | .integerLiteral => do
    let literalToken ← consumeToken
    let value ← parseIntegerLiteral literalToken.lexeme literalToken.location
    return ⟨.integer value, literalToken.location⟩
  | .doubleLiteral => do
    let literalToken ← consumeToken
    let value ← parseDoubleLiteral literalToken.lexeme literalToken.location
    return ⟨.real value, literalToken.location⟩
  | .stringLiteral => do
    let literalToken ← consumeToken
    return ⟨.string literalToken.lexeme, literalToken.location⟩
  | .booleanLiteral => do
    let literalToken ← consumeToken
    let first := literalToken.lexeme.toList.head?
    return ⟨.boolean (first = some 't' || first = some 'T'), literalToken.location⟩
  | .nullLiteral => do
    let literalToken ← consumeToken
    return ⟨.null, literalToken.location⟩
  | _ => unexpected token "expected literal"

def comparisonOperator : TokenKind → Option ComparisonOperator
  | .equal => some .equal
  | .notEqual => some .notEqual
  | .less => some .less
  | .lessEqual => some .lessEqual
  | .greater => some .greater
  | .greaterEqual => some .greaterEqual
  | _ => none

def parseComparisonOperator : Parser ComparisonOperator := do
  let token ← currentToken
  match comparisonOperator token.kind with
  | some operator => do
    let _ ← consumeToken
    return operator
  | none => unexpected token "expected comparison operator"

/-- What follows `IS` in a predicate. -/
def parseNullTest (columnName : Identifier) : Parser Predicate := do
  if ← matchKind .nullLiteral then
    return ⟨columnName, .isNull, none, columnName.location⟩
  else if ← matchKind .not then
    let _ ← expectKind .nullLiteral "expected 'NULL' after 'IS NOT'"
    return ⟨columnName, .isNotNull, none, columnName.location⟩
  else
    let token ← currentToken
    unexpected token "expected 'NULL' or 'NOT' after 'IS'"

def parsePredicate : Parser Predicate := do
  let columnName ← identifier "expected column name after 'WHERE'"
  if ← matchKind .is then
    parseNullTest columnName
  else
    let operator ← parseComparisonOperator
    let literal ← parseLiteral
    return ⟨columnName, operator, some literal, columnName.location⟩

/-- `if(match_kind(TokenKind::Where))` with what follows. -/
def parseOptionalWhere : Parser (Option Predicate) := do
  if ← matchKind .where then
    let predicate ← parsePredicate
    return some predicate
  else
    return none

/-! ## Statements -/

def parseTransactionStatement : Parser Statement := do
  let token ← currentToken
  if ← matchKind .begin then
    return .begin token.location
  else if ← matchKind .commit then
    return .commit token.location
  else if ← matchKind .rollback then
    return .rollback token.location
  else if ← matchKind .checkpoint then
    return .checkpoint token.location
  else
    Proc.fail (parserError token.location "expected transaction statement")

def parseCreateIndexStatement : Parser Statement := do
  let createToken ← expectKind .create "expected 'CREATE'"
  let unique ← matchKind .unique
  let _ ← expectKind .index "expected 'INDEX' after 'CREATE'"
  let indexName ← identifier "expected index name after 'CREATE INDEX'"
  let _ ← expectKind .on "expected 'ON' after index name"
  let tableName ← identifier "expected table name after 'ON'"
  let _ ← expectKind .leftParen "expected '(' after table name"
  let columnName ← identifier "expected column name inside index definition"
  let _ ← expectKind .rightParen "expected ')' after indexed column"
  return .createIndex ⟨indexName, tableName, columnName, unique, createToken.location⟩

def parseInsertStatement : Parser Statement := do
  let insertToken ← expectKind .insert "expected 'INSERT'"
  let _ ← expectKind .into "expected 'INTO' after 'INSERT'"
  let tableName ← identifier "expected table name after 'INSERT INTO'"
  let _ ← expectKind .values "expected 'VALUES' after table name"
  let _ ← expectKind .leftParen "expected '(' after 'VALUES'"
  let values ← items parseLiteral parseLiteral
  let _ ← expectKind .rightParen "expected ')' after values"
  return .insert ⟨tableName, values, insertToken.location⟩

def parseSelectProjection : Parser SelectProjection := do
  let token ← currentToken
  if ← matchKind .asterisk then
    return .all token.location
  else
    let columns ← items (identifier "expected '*' or column name after 'SELECT'")
      (identifier "expected column name after ','")
    return .columns columns token.location

def parseSelectStatement : Parser Statement := do
  let selectToken ← expectKind .select "expected 'SELECT'"
  let projection ← parseSelectProjection
  let _ ← expectKind .from "expected 'FROM' after projection"
  let tableName ← identifier "expected table name after 'FROM'"
  let predicate ← parseOptionalWhere
  return .select ⟨projection, tableName, predicate, selectToken.location⟩

def parseUpdateStatement : Parser Statement := do
  let updateToken ← expectKind .update "expected 'UPDATE'"
  let tableName ← identifier "expected table name after 'UPDATE'"
  let _ ← expectKind .set "expected 'SET' after table name"
  let columnName ← identifier "expected column name after 'SET'"
  let _ ← expectKind .equal "expected '=' after column name"
  let value ← parseLiteral
  let predicate ← parseOptionalWhere
  return .update ⟨tableName, ⟨columnName, value, columnName.location⟩, predicate,
    updateToken.location⟩

def parseDeleteStatement : Parser Statement := do
  let deleteToken ← expectKind .delete "expected 'DELETE'"
  let _ ← expectKind .from "expected 'FROM' after 'DELETE'"
  let tableName ← identifier "expected table name after 'DELETE FROM'"
  let predicate ← parseOptionalWhere
  return .delete ⟨tableName, predicate, deleteToken.location⟩

def parseDropTableStatement : Parser Statement := do
  let dropToken ← expectKind .drop "expected 'DROP'"
  let _ ← expectKind .table "expected 'TABLE' after 'DROP'"
  let tableName ← identifier "expected table name after 'DROP TABLE'"
  return .dropTable ⟨tableName, dropToken.location⟩

def parseDropIndexStatement : Parser Statement := do
  let dropToken ← expectKind .drop "expected 'DROP'"
  let _ ← expectKind .index "expected 'INDEX' after 'DROP'"
  let indexName ← identifier "expected index name after 'DROP INDEX'"
  return .dropIndex ⟨indexName, dropToken.location⟩

def parseStatement : Parser Statement := do
  let token ← currentToken
  match token.kind with
  | .begin | .commit | .rollback | .checkpoint => parseTransactionStatement
  | .create => do
    let next ← nextToken
    if next.kind = .table then
      let statement ← parseCreateTableStatement
      return .createTable statement
    else
      parseCreateIndexStatement
  | .drop => do
    let next ← nextToken
    if next.kind = .table then parseDropTableStatement else parseDropIndexStatement
  | .insert => parseInsertStatement
  | .select => parseSelectStatement
  | .update => parseUpdateStatement
  | .delete => parseDeleteStatement
  | _ => Proc.fail (parserError token.location "expected statement")

/-- The loop of `parse`. -/
def parseStatements : Parser (List Statement) :=
  repeatWhile (· ≠ .endOfInput) (fun statements => do
    let statement ← parseStatement
    let _ ← expectKind .semicolon "expected ';' after statement"
    return statements ++ [statement]) []

def parse (tokens : List Token) : Except Failure (List Statement) :=
  (parseStatements.run tokens).1

/-! ## Capacities -/

section Capacities

theorem decimalValue_cons (value : Nat) (ch : Char) (digits : List Char) :
    decimalValue value (ch :: digits) = decimalValue (value * 10 + (ch.toNat - 48)) digits := by
  rw [decimalValue, List.foldl_cons, decimalValue]

theorem le_decimalValue (value : Nat) (digits : List Char) : value ≤ decimalValue value digits := by
  induction digits generalizing value with
  | nil => exact Nat.le_refl _
  | cons ch digits ih =>
    rw [decimalValue_cons]
    exact Nat.le_trans (by omega) (ih _)

theorem toNat_digitValue {ch : Char} (h : ch.isDigit = true) :
    (digitValue ch).toNat = ch.toNat - 48 ∧ ch.toNat - 48 ≤ 9 := by
  simp only [Char.isDigit, Bool.and_eq_true, decide_eq_true_eq] at h
  have hlower : 48 ≤ ch.toNat := h.1
  have hupper : ch.toNat ≤ 57 := h.2
  refine ⟨?_, by omega⟩
  rw [digitValue, UInt64.toNat_sub_of_le, UInt64.toNat_ofNat', Nat.mod_eq_of_lt (by omega)]
  · rfl
  · rw [UInt64.le_iff_toNat_le, UInt64.toNat_ofNat', Nat.mod_eq_of_lt (by omega)]
    exact hlower

/-- The capacity that is read is the number that is written, and it is too large
exactly when it does not fit in 64 bits. -/
theorem capacityValue_eq (digits : List Char) (h : ∀ ch ∈ digits, ch.isDigit = true)
    (capacity : UInt64) : capacityValue capacity digits =
      if decimalValue capacity.toNat digits < 2 ^ 64 then
        some (UInt64.ofNat (decimalValue capacity.toNat digits))
      else none := by
  induction digits generalizing capacity with
  | nil => simp [capacityValue, decimalValue, capacity.toNat_lt]
  | cons ch digits ih =>
    obtain ⟨hdigit, hle⟩ := toNat_digitValue (h ch (List.mem_cons_self ..))
    have hguard : capacity > (0xFFFFFFFFFFFFFFFF - digitValue ch) / 10 ↔
        2 ^ 64 ≤ capacity.toNat * 10 + (ch.toNat - 48) := by
      have hmax : (0xFFFFFFFFFFFFFFFF - digitValue ch).toNat = 2 ^ 64 - 1 - (ch.toNat - 48) := by
        rw [UInt64.toNat_sub_of_le, hdigit]
        · rfl
        · rw [UInt64.le_iff_toNat_le, hdigit]
          exact Nat.le_trans hle (by decide)
      rw [gt_iff_lt, UInt64.lt_iff_toNat_lt, UInt64.toNat_div, hmax,
        show (10 : UInt64).toNat = 10 from rfl]
      omega
    rw [decimalValue_cons, capacityValue]
    by_cases hlarge : capacity > (0xFFFFFFFFFFFFFFFF - digitValue ch) / 10
    · have hge := le_decimalValue (capacity.toNat * 10 + (ch.toNat - 48)) digits
      rw [if_pos hlarge, if_neg (by have := hguard.mp hlarge; omega)]
    · have hlt := Nat.lt_of_not_le (mt hguard.mpr hlarge)
      have hnext : (capacity * 10 + digitValue ch).toNat =
          capacity.toNat * 10 + (ch.toNat - 48) := by
        rw [UInt64.toNat_add, UInt64.toNat_mul, hdigit, show (10 : UInt64).toNat = 10 from rfl,
          Nat.mod_eq_of_lt (a := capacity.toNat * 10) (by omega), Nat.mod_eq_of_lt hlt]
      rw [if_neg hlarge, ih (fun ch hmem => h ch (List.mem_cons_of_mem _ hmem)), hnext]

end Capacities

end Parser

end DanDB.Sql
