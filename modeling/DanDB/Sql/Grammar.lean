import DanDB.Lib.Predictive
import DanDB.Sql.Ast

/-!
# The grammar

The rules of the grammar, each with the tree that its words stand for.  Nothing here
says how a text is parsed: an alternative is a choice that nobody makes, and a
repetition has no end but that of the word.
-/

namespace DanDB.Sql

open DanDB.Core Record

namespace Grammar

/-- A token of a kind. -/
def keyword (kind : TokenKind) : Lang Token Token := Lang.token (·.kind = kind)

def name : Lang Token Identifier := do
  let token ← keyword .identifier
  return ⟨token.lexeme, token.location⟩

/-- Words of the language with a comma between each two. -/
def separated {α : Type} (L : Lang Token α) : Lang Token (List α) := do
  let first ← L
  let others ← Lang.many do
    let _ ← keyword .comma
    L
  return first :: others

/-! ## Column definitions -/

/-- The keywords that are types. -/
inductive NamesType : TokenKind → LogicalType → Prop
  | int8 : NamesType .int8 .int8
  | int16 : NamesType .int16 .int16
  | int32 : NamesType .int32 .int32
  | int64 : NamesType .int64 .int64
  | double : NamesType .double .float64
  | bool : NamesType .bool .boolean

def simpleType : Lang Token ColumnType :=
  Lang.terminal fun token type =>
    NamesType token.kind type.logicalType ∧ type.location = token.location

/-- The number of an `INTEGER_LITERAL`, which is not zero and fits in 64 bits. -/
def capacity : Lang Token Capacity :=
  Lang.terminal fun token capacity => token.kind = .integerLiteral ∧
    IsNumeral token.lexeme.toList ∧ capacity.val.toNat = decimalValue 0 token.lexeme.toList

def stringType : Lang Token ColumnType := do
  let string ← keyword .string
  let _ ← keyword .leftParen
  let capacity ← capacity
  let _ ← keyword .rightParen
  return ⟨.string capacity, string.location⟩

/-- `column_type` -/
def columnType : Lang Token ColumnType := Lang.either simpleType stringType

inductive Constraint where
  | primaryKey
  | unique
  | notNull
deriving DecidableEq

/-- `column_constraint` -/
def columnConstraint : Lang Token Constraint :=
  Lang.either
    (do
      let _ ← keyword .primary
      let _ ← keyword .key
      return .primaryKey)
    (Lang.either
      (do
        let _ ← keyword .unique
        return .unique)
      (do
        let _ ← keyword .not
        let _ ← keyword .nullLiteral
        return .notNull))

/-- `column_constraints` -/
def columnConstraints : Lang Token ColumnConstraints := do
  let constraints ← Lang.many columnConstraint
  return ⟨.primaryKey ∈ constraints, .unique ∈ constraints, .notNull ∈ constraints⟩

/-- `column_definition` -/
def columnDefinition : Lang Token ColumnDefinition := do
  let name ← name
  let type ← columnType
  let constraints ← columnConstraints
  return ⟨name, type, constraints, name.location⟩

/-! ## Literals and predicates -/

/-- The literal that a token is, if its number is in range. -/
inductive IsLiteral (token : Token) : LiteralValue → Prop
  | integer {value : Int64} (hkind : token.kind = .integerLiteral)
    (hnumeral : IsNumeral token.lexeme.toList)
    (hvalue : value.toInt = decimalValue 0 token.lexeme.toList) : IsLiteral token (.integer value)
  | double {bits : UInt64} (hkind : token.kind = .doubleLiteral)
    (hvalue : fromCharsFloat64 token.lexeme.toList = .parsed bits []) :
    IsLiteral token (.real bits)
  | string (hkind : token.kind = .stringLiteral) : IsLiteral token (.string token.lexeme)
  | true (hkind : token.kind = .booleanLiteral)
    (hvalue : upper token.lexeme.toList = "TRUE".toList) : IsLiteral token (.boolean true)
  | false (hkind : token.kind = .booleanLiteral)
    (hvalue : upper token.lexeme.toList = "FALSE".toList) : IsLiteral token (.boolean false)
  | null (hkind : token.kind = .nullLiteral) : IsLiteral token .null

/-- `literal` -/
def literal : Lang Token LiteralExpression :=
  Lang.terminal fun token literal =>
    IsLiteral token literal.value ∧ literal.location = token.location

inductive Compares : TokenKind → ComparisonOperator → Prop
  | equal : Compares .equal .equal
  | notEqual : Compares .notEqual .notEqual
  | less : Compares .less .less
  | lessEqual : Compares .lessEqual .lessEqual
  | greater : Compares .greater .greater
  | greaterEqual : Compares .greaterEqual .greaterEqual

/-- `comparison_operator` -/
def comparisonOperator : Lang Token ComparisonOperator :=
  Lang.terminal fun token operator => Compares token.kind operator

/-- `predicate` -/
def predicate : Lang Token Predicate :=
  Lang.either
    (do
      let name ← name
      let operator ← comparisonOperator
      let literal ← literal
      return ⟨name, operator, some literal, name.location⟩)
    (Lang.either
      (do
        let name ← name
        let _ ← keyword .is
        let _ ← keyword .nullLiteral
        return ⟨name, .isNull, none, name.location⟩)
      (do
        let name ← name
        let _ ← keyword .is
        let _ ← keyword .not
        let _ ← keyword .nullLiteral
        return ⟨name, .isNotNull, none, name.location⟩))

/-- `optional_where` -/
def optionalWhere : Lang Token (Option Predicate) :=
  Lang.either
    (do
      let _ ← keyword .where
      let predicate ← predicate
      return some predicate)
    (return none)

/-! ## Statements -/

/-- `create_table_statement` -/
def createTableStatement : Lang Token CreateTableStatement := do
  let create ← keyword .create
  let _ ← keyword .table
  let tableName ← name
  let _ ← keyword .leftParen
  let columns ← separated columnDefinition
  let _ ← keyword .rightParen
  return ⟨tableName, columns, create.location⟩

/-- `drop_table_statement` -/
def dropTableStatement : Lang Token Statement := do
  let drop ← keyword .drop
  let _ ← keyword .table
  let tableName ← name
  return .dropTable ⟨tableName, drop.location⟩

/-- `create_index_statement`, with or without `UNIQUE` -/
def createIndexStatement : Lang Token Statement := do
  let create ← keyword .create
  let unique ← Lang.optional (·.kind = .unique)
  let _ ← keyword .index
  let indexName ← name
  let _ ← keyword .on
  let tableName ← name
  let _ ← keyword .leftParen
  let columnName ← name
  let _ ← keyword .rightParen
  return .createIndex ⟨indexName, tableName, columnName, unique, create.location⟩

/-- `drop_index_statement` -/
def dropIndexStatement : Lang Token Statement := do
  let drop ← keyword .drop
  let _ ← keyword .index
  let indexName ← name
  return .dropIndex ⟨indexName, drop.location⟩

/-- `insert_statement` -/
def insertStatement : Lang Token Statement := do
  let insert ← keyword .insert
  let _ ← keyword .into
  let tableName ← name
  let _ ← keyword .values
  let _ ← keyword .leftParen
  let values ← separated literal
  let _ ← keyword .rightParen
  return .insert ⟨tableName, values, insert.location⟩

/-- `projection` -/
def projection : Lang Token SelectProjection :=
  Lang.either
    (do
      let asterisk ← keyword .asterisk
      return .all asterisk.location)
    (fun w projection => ∃ first others, separated name w (first :: others) ∧
      projection = .columns (first :: others) first.location)

/-- `select_statement` -/
def selectStatement : Lang Token Statement := do
  let select ← keyword .select
  let projection ← projection
  let _ ← keyword .from
  let tableName ← name
  let predicate ← optionalWhere
  return .select ⟨projection, tableName, predicate, select.location⟩

/-- `update_statement` -/
def updateStatement : Lang Token Statement := do
  let update ← keyword .update
  let tableName ← name
  let _ ← keyword .set
  let columnName ← name
  let _ ← keyword .equal
  let value ← literal
  let predicate ← optionalWhere
  return .update ⟨tableName, ⟨columnName, value, columnName.location⟩, predicate, update.location⟩

/-- `delete_statement` -/
def deleteStatement : Lang Token Statement := do
  let delete ← keyword .delete
  let _ ← keyword .from
  let tableName ← name
  let predicate ← optionalWhere
  return .delete ⟨tableName, predicate, delete.location⟩

/-- `transaction_statement` -/
def transactionStatement : Lang Token Statement :=
  Lang.terminal fun token statement =>
    token.kind = .begin ∧ statement = .begin token.location ∨
    token.kind = .commit ∧ statement = .commit token.location ∨
    token.kind = .rollback ∧ statement = .rollback token.location ∨
    token.kind = .checkpoint ∧ statement = .checkpoint token.location

/-- `statement` -/
inductive statement : Lang Token Statement
  | createTable {w s} (h : createTableStatement w s) : statement w (.createTable s)
  | dropTable {w s} (h : dropTableStatement w s) : statement w s
  | createIndex {w s} (h : createIndexStatement w s) : statement w s
  | dropIndex {w s} (h : dropIndexStatement w s) : statement w s
  | insert {w s} (h : insertStatement w s) : statement w s
  | select {w s} (h : selectStatement w s) : statement w s
  | update {w s} (h : updateStatement w s) : statement w s
  | delete {w s} (h : deleteStatement w s) : statement w s
  | transaction {w s} (h : transactionStatement w s) : statement w s

/-- Any number of statements, with a semicolon behind each. -/
def statements : Lang Token (List Statement) :=
  Lang.many do
    let statement ← statement
    let _ ← keyword .semicolon
    return statement

end Grammar

end DanDB.Sql
