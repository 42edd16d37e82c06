import DanDB.Sql.Grammar

/-!
# Locations

Where a token stands in its text says nothing about what it is.  When the locations
of some tokens change, so do those in their tree, and nothing else.
-/

namespace DanDB.Sql

open DanDB.Core Record

section Relocate

variable (f : SourceLocation → SourceLocation)

def Token.relocate (token : Token) : Token := { token with location := f token.location }

def Identifier.relocate (name : Identifier) : Identifier := ⟨name.text, f name.location⟩

def ColumnType.relocate (type : ColumnType) : ColumnType := ⟨type.logicalType, f type.location⟩

def ColumnDefinition.relocate (column : ColumnDefinition) : ColumnDefinition :=
  ⟨column.name.relocate f, column.type.relocate f, column.constraints, f column.location⟩

def LiteralExpression.relocate (literal : LiteralExpression) : LiteralExpression :=
  ⟨literal.value, f literal.location⟩

def Predicate.relocate (predicate : Predicate) : Predicate :=
  ⟨predicate.columnName.relocate f, predicate.comparisonOperator,
    predicate.literal.map (·.relocate f), f predicate.location⟩

def Assignment.relocate (assignment : Assignment) : Assignment :=
  ⟨assignment.columnName.relocate f, assignment.value.relocate f, f assignment.location⟩

def SelectProjection.relocate (projection : SelectProjection) : SelectProjection :=
  match projection with
  | .all location => .all (f location)
  | .columns names location => .columns (names.map (·.relocate f)) (f location)

def CreateTableStatement.relocate (s : CreateTableStatement) : CreateTableStatement :=
  ⟨s.tableName.relocate f, s.columns.map (·.relocate f), f s.location⟩

def Statement.relocate : Statement → Statement
  | .createTable s => .createTable (s.relocate f)
  | .dropTable s => .dropTable ⟨s.tableName.relocate f, f s.location⟩
  | .createIndex s => .createIndex ⟨s.indexName.relocate f, s.tableName.relocate f,
      s.columnName.relocate f, s.unique, f s.location⟩
  | .dropIndex s => .dropIndex ⟨s.indexName.relocate f, f s.location⟩
  | .insert s => .insert ⟨s.tableName.relocate f, s.values.map (·.relocate f), f s.location⟩
  | .select s => .select ⟨s.projection.relocate f, s.tableName.relocate f,
      s.predicate.map (·.relocate f), f s.location⟩
  | .update s => .update ⟨s.tableName.relocate f, s.assignment.relocate f,
      s.predicate.map (·.relocate f), f s.location⟩
  | .delete s => .delete ⟨s.tableName.relocate f, s.predicate.map (·.relocate f), f s.location⟩
  | .begin location => .begin (f location)
  | .commit location => .commit (f location)
  | .rollback location => .rollback (f location)
  | .checkpoint location => .checkpoint (f location)

/-- One relocation after another is a relocation. -/
theorem Statement.relocate_relocate (g : SourceLocation → SourceLocation) (s : Statement) :
    (s.relocate f).relocate g = s.relocate (g ∘ f) := by
  have hpredicate (p : Option Predicate) :
      (p.map (·.relocate f)).map (·.relocate g) = p.map (·.relocate (g ∘ f)) := by
    cases p with
    | none => rfl
    | some p =>
      obtain ⟨name, operator, literal, location⟩ := p
      cases literal <;> rfl
  cases s with
  | createTable s =>
    simp only [Statement.relocate, CreateTableStatement.relocate, List.map_map]
    rfl
  | insert s =>
    simp only [Statement.relocate, List.map_map]
    rfl
  | select s =>
    obtain ⟨projection, name, predicate, location⟩ := s
    simp only [Statement.relocate, hpredicate]
    cases projection with
    | all => rfl
    | columns names =>
      simp only [SelectProjection.relocate, List.map_map]
      rfl
  | update s =>
    simp only [Statement.relocate, hpredicate]
    rfl
  | delete s =>
    simp only [Statement.relocate, hpredicate]
    rfl
  | _ => rfl

/-- The statement with its locations blotted out. -/
def Statement.withoutLocations (s : Statement) : Statement := s.relocate fun _ => ⟨0, 0⟩

theorem Statement.withoutLocations_relocate (s : Statement) :
    (s.relocate f).withoutLocations = s.withoutLocations := s.relocate_relocate f _

end Relocate

/-! ## Words of the grammar -/

namespace Grammar

variable {f : SourceLocation → SourceLocation}

/-- The grammar reads relocated tokens as relocated trees. -/
abbrev Relocates {α : Type} (f : SourceLocation → SourceLocation) (g : α → α)
    (L L' : Lang Token α) : Prop := Lang.Carries (Token.relocate f) g L L'

theorem keyword_relocates (kind : TokenKind) :
    Relocates f (Token.relocate f) (keyword kind) (keyword kind) :=
  Lang.carries_token fun _ => id

theorem name_relocates : Relocates f (Identifier.relocate f) name name :=
  (keyword_relocates .identifier).bind fun _ => Lang.carries_pure rfl

theorem separated_relocates {α : Type} {g : α → α} {L : Lang Token α} (h : Relocates f g L L) :
    Relocates f (List.map g) (separated L) (separated L) :=
  h.bind fun _ => ((keyword_relocates .comma).bind fun _ => h).many.bind fun _ =>
    Lang.carries_pure rfl

theorem columnType_relocates : Relocates f (ColumnType.relocate f) columnType columnType := by
  refine Lang.Carries.either (Lang.carries_terminal ?_) ?_
  · rintro t type ⟨hnames, hlocation⟩
    exact ⟨hnames, congrArg f hlocation⟩
  · have hcapacity : Relocates f id capacity capacity := Lang.carries_terminal fun _ _ => id
    exact (keyword_relocates .string).bind fun _ => (keyword_relocates .leftParen).bind fun _ =>
      hcapacity.bind fun _ => (keyword_relocates .rightParen).bind fun _ => Lang.carries_pure rfl

theorem columnConstraints_relocates :
    Relocates f id columnConstraints columnConstraints := by
  have hconstraint : Relocates f id columnConstraint columnConstraint :=
    Lang.Carries.either
      ((keyword_relocates .primary).bind fun _ => (keyword_relocates .key).bind fun _ =>
        Lang.carries_pure rfl)
      (Lang.Carries.either
        ((keyword_relocates .unique).bind fun _ => Lang.carries_pure rfl)
        ((keyword_relocates .not).bind fun _ => (keyword_relocates .nullLiteral).bind fun _ =>
          Lang.carries_pure rfl))
  refine hconstraint.many.bind fun constraints => Lang.carries_pure ?_
  rw [List.map_id]
  rfl

theorem columnDefinition_relocates :
    Relocates f (ColumnDefinition.relocate f) columnDefinition columnDefinition :=
  name_relocates.bind fun _ => columnType_relocates.bind fun _ =>
    columnConstraints_relocates.bind fun _ => Lang.carries_pure rfl

theorem literal_relocates : Relocates f (LiteralExpression.relocate f) literal literal := by
  refine Lang.carries_terminal ?_
  rintro t ⟨value, location⟩ ⟨h, hlocation⟩
  refine ⟨?_, congrArg f hlocation⟩
  cases h with
  | integer hkind hnumeral hvalue => exact .integer hkind hnumeral hvalue
  | double hkind hvalue => exact .double hkind hvalue
  | string hkind => exact .string hkind
  | true hkind hvalue => exact .true hkind hvalue
  | false hkind hvalue => exact .false hkind hvalue
  | null hkind => exact .null hkind

theorem predicate_relocates : Relocates f (Predicate.relocate f) predicate predicate := by
  have hoperator : Relocates f id comparisonOperator comparisonOperator :=
    Lang.carries_terminal fun _ _ => id
  refine Lang.Carries.either ?_ (Lang.Carries.either ?_ ?_)
  · exact name_relocates.bind fun _ => hoperator.bind fun _ => literal_relocates.bind fun _ =>
      Lang.carries_pure rfl
  · exact name_relocates.bind fun _ => (keyword_relocates .is).bind fun _ =>
      (keyword_relocates .nullLiteral).bind fun _ => Lang.carries_pure rfl
  · exact name_relocates.bind fun _ => (keyword_relocates .is).bind fun _ =>
      (keyword_relocates .not).bind fun _ => (keyword_relocates .nullLiteral).bind fun _ =>
        Lang.carries_pure rfl

theorem optionalWhere_relocates :
    Relocates f (Option.map (Predicate.relocate f)) optionalWhere optionalWhere :=
  Lang.Carries.either
    ((keyword_relocates .where).bind fun _ => predicate_relocates.bind fun _ =>
      Lang.carries_pure rfl)
    (Lang.carries_pure rfl)

theorem createTableStatement_relocates :
    Relocates f (CreateTableStatement.relocate f) createTableStatement createTableStatement :=
  (keyword_relocates .create).bind fun _ => (keyword_relocates .table).bind fun _ =>
    name_relocates.bind fun _ => (keyword_relocates .leftParen).bind fun _ =>
      (separated_relocates columnDefinition_relocates).bind fun _ =>
        (keyword_relocates .rightParen).bind fun _ => Lang.carries_pure rfl

theorem createIndexStatement_relocates :
    Relocates f (Statement.relocate f) createIndexStatement createIndexStatement := by
  have hunique : Relocates f id (Lang.optional (·.kind = .unique))
      (Lang.optional (·.kind = .unique)) := Lang.carries_optional fun _ => id
  exact (keyword_relocates .create).bind fun _ => hunique.bind fun _ =>
    (keyword_relocates .index).bind fun _ => name_relocates.bind fun _ =>
      (keyword_relocates .on).bind fun _ => name_relocates.bind fun _ =>
        (keyword_relocates .leftParen).bind fun _ => name_relocates.bind fun _ =>
          (keyword_relocates .rightParen).bind fun _ => Lang.carries_pure rfl

theorem insertStatement_relocates :
    Relocates f (Statement.relocate f) insertStatement insertStatement :=
  (keyword_relocates .insert).bind fun _ => (keyword_relocates .into).bind fun _ =>
    name_relocates.bind fun _ => (keyword_relocates .values).bind fun _ =>
      (keyword_relocates .leftParen).bind fun _ =>
        (separated_relocates literal_relocates).bind fun _ =>
          (keyword_relocates .rightParen).bind fun _ => Lang.carries_pure rfl

theorem selectStatement_relocates :
    Relocates f (Statement.relocate f) selectStatement selectStatement := by
  have hprojection : Relocates f (SelectProjection.relocate f) projection projection := by
    refine Lang.Carries.either ?_ ?_
    · exact (keyword_relocates .asterisk).bind fun _ => Lang.carries_pure rfl
    · rintro w _ ⟨first, others, hword, rfl⟩
      exact ⟨first.relocate f, others.map (·.relocate f),
        separated_relocates name_relocates _ _ hword, rfl⟩
  exact (keyword_relocates .select).bind fun _ => hprojection.bind fun _ =>
    (keyword_relocates .from).bind fun _ => name_relocates.bind fun _ =>
      optionalWhere_relocates.bind fun _ => Lang.carries_pure rfl

theorem updateStatement_relocates :
    Relocates f (Statement.relocate f) updateStatement updateStatement :=
  (keyword_relocates .update).bind fun _ => name_relocates.bind fun _ =>
    (keyword_relocates .set).bind fun _ => name_relocates.bind fun _ =>
      (keyword_relocates .equal).bind fun _ => literal_relocates.bind fun _ =>
        optionalWhere_relocates.bind fun _ => Lang.carries_pure rfl

theorem deleteStatement_relocates :
    Relocates f (Statement.relocate f) deleteStatement deleteStatement :=
  (keyword_relocates .delete).bind fun _ => (keyword_relocates .from).bind fun _ =>
    name_relocates.bind fun _ => optionalWhere_relocates.bind fun _ => Lang.carries_pure rfl

theorem dropTableStatement_relocates :
    Relocates f (Statement.relocate f) dropTableStatement dropTableStatement :=
  (keyword_relocates .drop).bind fun _ => (keyword_relocates .table).bind fun _ =>
    name_relocates.bind fun _ => Lang.carries_pure rfl

theorem dropIndexStatement_relocates :
    Relocates f (Statement.relocate f) dropIndexStatement dropIndexStatement :=
  (keyword_relocates .drop).bind fun _ => (keyword_relocates .index).bind fun _ =>
    name_relocates.bind fun _ => Lang.carries_pure rfl

theorem statement_relocates : Relocates f (Statement.relocate f) statement statement := by
  intro w s h
  cases h with
  | createTable h => exact .createTable (createTableStatement_relocates _ _ h)
  | createIndex h => exact .createIndex (createIndexStatement_relocates _ _ h)
  | insert h => exact .insert (insertStatement_relocates _ _ h)
  | select h => exact .select (selectStatement_relocates _ _ h)
  | update h => exact .update (updateStatement_relocates _ _ h)
  | dropTable h => exact .dropTable (dropTableStatement_relocates _ _ h)
  | dropIndex h => exact .dropIndex (dropIndexStatement_relocates _ _ h)
  | delete h => exact .delete (deleteStatement_relocates _ _ h)
  | transaction h =>
    obtain ⟨t, rfl, h⟩ := h
    refine .transaction ⟨t.relocate f, rfl, ?_⟩
    obtain ⟨hkind, rfl⟩ | ⟨hkind, rfl⟩ | ⟨hkind, rfl⟩ | ⟨hkind, rfl⟩ := h
    · exact .inl ⟨hkind, rfl⟩
    · exact .inr (.inl ⟨hkind, rfl⟩)
    · exact .inr (.inr (.inl ⟨hkind, rfl⟩))
    · exact .inr (.inr (.inr ⟨hkind, rfl⟩))

/-- Relocated tokens are read as the relocated statements. -/
theorem statements_relocates :
    Relocates f (List.map (Statement.relocate f)) statements statements :=
  (statement_relocates.bind fun s => (keyword_relocates .semicolon).bind fun _ =>
    Lang.carries_pure (a := s) (b := s.relocate f) rfl).many

end Grammar

end DanDB.Sql
