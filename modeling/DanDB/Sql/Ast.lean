import DanDB.Core.Charconv
import DanDB.Record.LogicalType

/-!
# Tokens and statements

A text is a string whose characters stand for bytes.
-/

namespace DanDB.Record

inductive LiteralValue where
  | null
  | integer (value : Int64)
  /-- A double, as its bits. -/
  | real (bits : UInt64)
  | string (value : String)
  | boolean (value : Bool)
deriving DecidableEq

end DanDB.Record

namespace DanDB.Sql

open DanDB.Core Record

inductive TokenKind where
  | create
  | table
  | primary
  | key
  | unique
  | drop
  | index
  | on
  | insert
  | into
  | values
  | select
  | from
  | where
  | update
  | set
  | delete
  | begin
  | commit
  | rollback
  | checkpoint
  | int8
  | int16
  | int32
  | int64
  | double
  | string
  | bool
  | is
  | not
  | identifier
  | integerLiteral
  | doubleLiteral
  | stringLiteral
  | booleanLiteral
  | nullLiteral
  | semicolon
  | comma
  | leftParen
  | rightParen
  | asterisk
  | equal
  | greater
  | greaterEqual
  | less
  | lessEqual
  | notEqual
  | endOfInput
deriving DecidableEq, Repr

structure SourceLocation where
  line : Nat
  column : Nat
deriving DecidableEq, Repr

structure Token where
  kind : TokenKind
  lexeme : String
  location : SourceLocation
deriving DecidableEq, Repr

def toAsciiUpper (ch : Char) : Char :=
  if 'a' ≤ ch ∧ ch ≤ 'z' then Char.ofNat (ch.toNat - 'a'.toNat + 'A'.toNat) else ch

/-- A word in capital letters. -/
def upper (word : List Char) : List Char := word.map toAsciiUpper

/-- The lexeme is one that the lexer gives to a token of the kind. -/
def Token.IsLexed (token : Token) : Prop :=
  match token.kind with
  | .integerLiteral => IsNumeral token.lexeme.toList
  | .doubleLiteral => ∃ integral fraction, token.lexeme.toList = integral ++ '.' :: fraction ∧
      IsNumeral integral ∧ IsNumeral fraction
  | .booleanLiteral =>
    upper token.lexeme.toList = "TRUE".toList ∨ upper token.lexeme.toList = "FALSE".toList
  | _ => True

structure Identifier where
  text : String
  location : SourceLocation
deriving DecidableEq

structure ColumnType where
  logicalType : LogicalType
  location : SourceLocation
deriving DecidableEq

structure ColumnConstraints where
  primaryKey : Bool
  unique : Bool
  notNull : Bool
deriving DecidableEq

structure ColumnDefinition where
  name : Identifier
  type : ColumnType
  constraints : ColumnConstraints
  location : SourceLocation
deriving DecidableEq

structure LiteralExpression where
  value : LiteralValue
  location : SourceLocation
deriving DecidableEq

inductive ComparisonOperator where
  | equal
  | notEqual
  | less
  | lessEqual
  | greater
  | greaterEqual
  | isNull
  | isNotNull
deriving DecidableEq

structure Predicate where
  columnName : Identifier
  comparisonOperator : ComparisonOperator
  literal : Option LiteralExpression
  location : SourceLocation
deriving DecidableEq

structure Assignment where
  columnName : Identifier
  value : LiteralExpression
  location : SourceLocation
deriving DecidableEq

/-- `SelectAll` and `SelectColumns` -/
inductive SelectProjection where
  | all (location : SourceLocation)
  | columns (columns : List Identifier) (location : SourceLocation)
deriving DecidableEq

structure CreateTableStatement where
  tableName : Identifier
  columns : List ColumnDefinition
  location : SourceLocation
deriving DecidableEq

structure DropTableStatement where
  tableName : Identifier
  location : SourceLocation
deriving DecidableEq

structure CreateIndexStatement where
  indexName : Identifier
  tableName : Identifier
  columnName : Identifier
  unique : Bool
  location : SourceLocation
deriving DecidableEq

structure DropIndexStatement where
  indexName : Identifier
  location : SourceLocation
deriving DecidableEq

structure InsertStatement where
  tableName : Identifier
  values : List LiteralExpression
  location : SourceLocation
deriving DecidableEq

structure SelectStatement where
  projection : SelectProjection
  tableName : Identifier
  predicate : Option Predicate
  location : SourceLocation
deriving DecidableEq

structure UpdateStatement where
  tableName : Identifier
  assignment : Assignment
  predicate : Option Predicate
  location : SourceLocation
deriving DecidableEq

structure DeleteStatement where
  tableName : Identifier
  predicate : Option Predicate
  location : SourceLocation
deriving DecidableEq

inductive Statement where
  | createTable (statement : CreateTableStatement)
  | dropTable (statement : DropTableStatement)
  | createIndex (statement : CreateIndexStatement)
  | dropIndex (statement : DropIndexStatement)
  | insert (statement : InsertStatement)
  | select (statement : SelectStatement)
  | update (statement : UpdateStatement)
  | delete (statement : DeleteStatement)
  | begin (location : SourceLocation)
  | commit (location : SourceLocation)
  | rollback (location : SourceLocation)
  | checkpoint (location : SourceLocation)
deriving DecidableEq

end DanDB.Sql
