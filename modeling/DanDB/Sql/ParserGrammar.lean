import DanDB.Sql.Grammar
import DanDB.Sql.Parser

/-!
# The parser and the grammar

Each function of the parser reads the rule of the grammar that it is named after
(`Conventions.Parses`), and so the parser accepts exactly the words of the grammar
and returns their trees.
-/

namespace DanDB.Sql

open DanDB.Core Record

namespace Parser

/-- How the tokens and the errors of the parser are told apart. -/
def conventions : Conventions Token Failure where
  inside token := token.kind ≠ .endOfInput ∧ token.IsLexed
  isEnd token := token.kind = .endOfInput
  wrong failure := ∃ message, failure = .status (.ParseError message)
  starved failure := ∃ message, failure = .status (.IncompleteInput message)

/-- A parser reads the words of a rule. -/
abbrev Reads {α : Type} (p : Parser α) (L : Lang Token α) (more : Token → Prop) : Prop :=
  conventions.Parses p L more

section Tokens

variable {token : Token} {rest : List Token} {kind : TokenKind} {message : String} {α : Type}

/-- A token of the kind is taken. -/
theorem expectKind_run (h : token.kind = kind) :
    (expectKind kind message).run (token :: rest) = (.ok token, rest) := by
  rw [expectKind]
  show (if token.kind ≠ kind then _ else _ : Parser Token).run _ = _
  rw [if_neg (not_not.mpr h)]
  rfl

/-- Another token is an error. -/
theorem expectKind_run_of_ne (h : token.kind ≠ kind) :
    (expectKind kind message).run (token :: rest) =
      (unexpected token message : Parser Token).run (token :: rest) := by
  rw [expectKind]
  show (if token.kind ≠ kind then _ else _ : Parser Token).run _ = _
  rw [if_pos h]

/-- At the end of the tokens more input could help. -/
theorem unexpected_run_end (h : token.kind = .endOfInput) :
    (unexpected token message : Parser α).run rest =
      (.error (incompleteInputError token.location message), rest) := by
  rw [unexpected, if_pos h]
  rfl

/-- Elsewhere it could not. -/
theorem unexpected_run (h : token.kind ≠ .endOfInput) :
    (unexpected token message : Parser α).run rest =
      (.error (parserError token.location message), rest) := by
  rw [unexpected, if_neg h]
  rfl

theorem wrong_parserError (location : SourceLocation) (message : String) :
    conventions.wrong (parserError location message) := ⟨_, rfl⟩

theorem starved_incompleteInputError (location : SourceLocation) (message : String) :
    conventions.starved (incompleteInputError location message) := ⟨_, rfl⟩

/-- A token that is expected at the end is missing. -/
theorem starved_expectKind (message : String) (hkind : kind ≠ .endOfInput)
    (h : conventions.isEnd token) :
    ∃ e rest, conventions.starved e ∧
      (expectKind kind message).run [token] = (.error e, rest) := by
  refine ⟨_, [token], starved_incompleteInputError token.location message, ?_⟩
  rw [expectKind_run_of_ne (fun heq => hkind (heq.symm.trans h)), unexpected_run_end h]

/-- An expected token is a keyword of the grammar. -/
theorem reads_expectKind (hkind : kind ≠ .endOfInput) :
    Reads (expectKind kind message) (Grammar.keyword kind) Conventions.closed := by
  refine Conventions.parses_token (fun t v h => expectKind_run h) (fun t ht h => ?_) ?_
  · refine ⟨_, wrong_parserError t.location message, fun v => ⟨t :: v, ?_⟩⟩
    rw [expectKind_run_of_ne h, unexpected_run ht.1]
  · exact fun t ht => starved_expectKind _ hkind ht

/-- At the end of the input a token that must come is missed. -/
theorem waits_expectKind {β : Type} {f : Token → Parser β} {L : Lang Token β} {more : Token → Prop}
    (hkind : kind ≠ .endOfInput) : conventions.Waits (expectKind kind message >>= f) L more := by
  refine .inr fun t ht => ?_
  obtain ⟨e, rest, he, hrun⟩ := starved_expectKind message hkind ht
  exact ⟨e, rest, he, Proc.bind_run_error hrun⟩

/-- An identifier is a name of the grammar. -/
theorem reads_identifier (message : String) :
    Reads (identifier message) Grammar.name Conventions.closed :=
  (reads_expectKind (by decide)).bind fun _ _ _ => Conventions.parses_pure _

/-- A token of the kind is taken. -/
theorem matchKind_run (h : token.kind = kind) :
    (matchKind kind).run (token :: rest) = (.ok true, rest) := by
  rw [matchKind]
  show (if token.kind ≠ kind then _ else _ : Parser Bool).run _ = _
  rw [if_neg (not_not.mpr h)]
  rfl

/-- Another token stays. -/
theorem matchKind_run_of_ne (h : token.kind ≠ kind) :
    (matchKind kind).run (token :: rest) = (.ok false, token :: rest) := by
  rw [matchKind]
  show (if token.kind ≠ kind then _ else _ : Parser Bool).run _ = _
  rw [if_pos h]
  rfl

/-- A token that may be there is optional in the grammar. -/
theorem reads_matchKind (hkind : kind ≠ .endOfInput) :
    Reads (matchKind kind) (Lang.optional (·.kind = kind)) (·.kind = kind) :=
  Conventions.parses_optional (fun _ _ h => matchKind_run h) (fun _ _ h => matchKind_run_of_ne h)
    (fun _ ht h => hkind (h.symm.trans ht)) ⟨⟨kind, "", ⟨1, 1⟩⟩, rfl⟩

end Tokens

/-! ## Literals -/

section Literals

variable {token : Token} {rest : List Token} {message : String}

theorem starved_unexpected {α : Type} (h : conventions.isEnd token) :
    ∃ e rest, conventions.starved e ∧
      (unexpected token message : Parser α).run [token] = (.error e, rest) :=
  ⟨_, [token], starved_incompleteInputError token.location message, unexpected_run_end h⟩

theorem wrong_unexpected {α : Type} (h : token.kind ≠ .endOfInput) (message : String) :
    ∃ e, conventions.wrong e ∧ ∀ v, ∃ rest,
      (unexpected token message : Parser α).run v = (.error e, rest) :=
  ⟨_, wrong_parserError token.location message, fun v => ⟨v, unexpected_run h⟩⟩

/-- The value of an integer that fits. -/
theorem parseLiteral_integer {value : Int64} (hkind : token.kind = .integerLiteral)
    (hnumeral : IsNumeral token.lexeme.toList)
    (hvalue : value.toInt = decimalValue 0 token.lexeme.toList) :
    parseLiteral.run (token :: rest) = (.ok ⟨.integer value, token.location⟩, rest) := by
  obtain ⟨kind, lexeme, location⟩ := token
  obtain rfl : kind = .integerLiteral := hkind
  have hlt : decimalValue 0 lexeme.toList < 2 ^ 63 := by
    have hbound := value.toInt_lt
    rw [hvalue] at hbound
    exact_mod_cast hbound
  show (parseIntegerLiteral lexeme location >>= fun value =>
    pure ⟨.integer value, location⟩ : Parser LiteralExpression).run rest = _
  rw [parseIntegerLiteral, fromCharsInt64_numeral hnumeral, if_pos hlt, ← hvalue,
    Int64.ofInt_toInt]
  rfl

/-- An integer that does not fit is an error, whatever follows. -/
theorem parseLiteral_integer_range (hkind : token.kind = .integerLiteral)
    (hnumeral : IsNumeral token.lexeme.toList)
    (hvalue : ¬decimalValue 0 token.lexeme.toList < 2 ^ 63) :
    parseLiteral.run (token :: rest) =
      (.error (parserError token.location "integer literal is out of range"), rest) := by
  obtain ⟨kind, lexeme, location⟩ := token
  obtain rfl : kind = .integerLiteral := hkind
  show (parseIntegerLiteral lexeme location >>= fun value =>
    pure ⟨.integer value, location⟩ : Parser LiteralExpression).run rest = _
  rw [parseIntegerLiteral, fromCharsInt64_numeral hnumeral, if_neg hvalue]
  rfl

/-- A double is read as `std::from_chars` reads it. -/
theorem parseLiteral_double (hkind : token.kind = .doubleLiteral) :
    (∃ bits, fromCharsFloat64 token.lexeme.toList = .parsed bits [] ∧ ∀ rest,
      parseLiteral.run (token :: rest) = (.ok ⟨.real bits, token.location⟩, rest)) ∨
    (∀ bits, fromCharsFloat64 token.lexeme.toList ≠ .parsed bits []) ∧
      ∃ message, ∀ rest, parseLiteral.run (token :: rest) =
        (.error (parserError token.location message), rest) := by
  obtain ⟨kind, lexeme, location⟩ := token
  obtain rfl : kind = .doubleLiteral := hkind
  have hrun (rest : List Token) : parseLiteral.run (⟨.doubleLiteral, lexeme, location⟩ :: rest) =
      (parseDoubleLiteral lexeme location >>= fun value =>
        pure ⟨.real value, location⟩ : Parser LiteralExpression).run rest := rfl
  simp only [hrun, parseDoubleLiteral]
  cases fromCharsFloat64 lexeme.toList with
  | invalidArgument => exact .inr ⟨nofun, _, fun _ => rfl⟩
  | resultOutOfRange => exact .inr ⟨nofun, _, fun _ => rfl⟩
  | parsed bits behind =>
    cases behind with
    | nil => exact .inl ⟨bits, rfl, fun _ => rfl⟩
    | cons ch behind => exact .inr ⟨nofun, _, fun _ => rfl⟩

/-- The letters that become a capital letter. -/
theorem toAsciiUpper_eq {ch letter : Char} (h : toAsciiUpper ch = letter) :
    ch = letter ∨ ch.toNat = letter.toNat + 32 := by
  rw [toAsciiUpper] at h
  split at h
  next hlower =>
    have hge : 97 ≤ ch.toNat := hlower.1
    have hle : ch.toNat ≤ 122 := hlower.2
    have hvalid : (ch.toNat - 'a'.toNat + 'A'.toNat).isValidChar := by
      left
      show ch.toNat - 97 + 65 < _
      omega
    right
    rw [← h, Char.ofNat, dif_pos hvalid]
    show _ = (ch.toNat - 97 + 65) + 32
    omega
  next => exact .inl h

/-- The first letter tells the two boolean literals apart. -/
theorem startsTrue_iff {word : List Char} {value : Bool}
    (h : upper word = if value then "TRUE".toList else "FALSE".toList) :
    (word.head? = some 't' || word.head? = some 'T' : Bool) = value := by
  cases word with
  | nil => cases value <;> cases h
  | cons ch word =>
    rw [List.head?_cons]
    cases value with
    | true =>
      obtain ⟨hfirst, -⟩ := List.cons.inj (h : toAsciiUpper ch :: upper word = 'T' :: ['R', 'U', 'E'])
      rcases toAsciiUpper_eq hfirst with rfl | hcode
      · rfl
      · obtain rfl : ch = 't' := Char.toNat_inj.mp hcode
        rfl
    | false =>
      obtain ⟨hfirst, -⟩ :=
        List.cons.inj (h : toAsciiUpper ch :: upper word = 'F' :: ['A', 'L', 'S', 'E'])
      rcases toAsciiUpper_eq hfirst with rfl | hcode
      · rfl
      · obtain rfl : ch = 'f' := Char.toNat_inj.mp hcode
        rfl

/-- The first letter tells TRUE from FALSE. -/
theorem parseLiteral_boolean {value : Bool} (hkind : token.kind = .booleanLiteral)
    (hvalue : upper token.lexeme.toList = if value then "TRUE".toList else "FALSE".toList) :
    parseLiteral.run (token :: rest) = (.ok ⟨.boolean value, token.location⟩, rest) := by
  obtain ⟨kind, lexeme, location⟩ := token
  obtain rfl : kind = .booleanLiteral := hkind
  have hfirst := startsTrue_iff hvalue
  show (pure ⟨.boolean (lexeme.toList.head? = some 't' || lexeme.toList.head? = some 'T'),
    location⟩ : Parser LiteralExpression).run rest = _
  rw [hfirst]
  rfl

/-- A literal of the grammar is parsed. -/
theorem parseLiteral_run {literal : LiteralExpression} (h : Grammar.IsLiteral token literal.value)
    (hlocation : literal.location = token.location) :
    parseLiteral.run (token :: rest) = (.ok literal, rest) := by
  obtain ⟨value, location⟩ := literal
  obtain rfl : location = token.location := hlocation
  cases h with
  | integer hkind hnumeral hvalue => exact parseLiteral_integer hkind hnumeral hvalue
  | @double bits hkind hvalue =>
    obtain ⟨bits', hbits, hrun⟩ | ⟨hnone, -⟩ := parseLiteral_double hkind
    · rw [hbits] at hvalue
      cases hvalue
      exact hrun rest
    · exact (hnone bits hvalue).elim
  | string hkind =>
    obtain ⟨kind, lexeme, location⟩ := token
    obtain rfl : kind = .stringLiteral := hkind
    rfl
  | true hkind hvalue => exact parseLiteral_boolean hkind hvalue
  | false hkind hvalue => exact parseLiteral_boolean hkind hvalue
  | null hkind =>
    obtain ⟨kind, lexeme, location⟩ := token
    obtain rfl : kind = .nullLiteral := hkind
    rfl

/-- A token is a literal or is rejected. -/
theorem parseLiteral_other (h : conventions.inside token) :
    (∃ value, Grammar.IsLiteral token value) ∨
      ∃ e, conventions.wrong e ∧ ∀ v, ∃ rest, parseLiteral.run (token :: v) = (.error e, rest) := by
  obtain ⟨kind, lexeme, location⟩ := token
  obtain ⟨hend, hlexed⟩ := h
  cases kind with
  | integerLiteral =>
    by_cases hlt : decimalValue 0 lexeme.toList < 2 ^ 63
    · refine .inl ⟨.integer (Int64.ofInt (decimalValue 0 lexeme.toList)), .integer rfl hlexed ?_⟩
      exact Int64.toInt_ofInt_of_le (by omega) (by omega)
    · exact .inr ⟨_, wrong_parserError location _, fun v =>
        ⟨v, parseLiteral_integer_range rfl hlexed hlt⟩⟩
  | doubleLiteral =>
    obtain ⟨bits, hbits, -⟩ | ⟨-, message, hrun⟩ :=
      @parseLiteral_double ⟨.doubleLiteral, lexeme, location⟩ rfl
    · exact .inl ⟨.real bits, .double rfl hbits⟩
    · exact .inr ⟨_, wrong_parserError location message, fun v => ⟨v, hrun v⟩⟩
  | stringLiteral => exact .inl ⟨_, .string rfl⟩
  | booleanLiteral =>
    cases hlexed with
    | inl htrue => exact .inl ⟨_, .true rfl htrue⟩
    | inr hfalse => exact .inl ⟨_, .false rfl hfalse⟩
  | nullLiteral => exact .inl ⟨_, .null rfl⟩
  | endOfInput => exact (hend rfl).elim
  | _ => exact .inr ⟨_, wrong_parserError location "expected literal", fun v => ⟨_, rfl⟩⟩

/-- A literal is one token. -/
theorem reads_parseLiteral : Reads parseLiteral Grammar.literal Conventions.closed := by
  refine Conventions.parses_terminal (fun t a v h => parseLiteral_run h.1 h.2) (fun t ht => ?_) ?_
  · obtain ⟨value, hvalue⟩ | hwrong := parseLiteral_other ht
    · exact .inl ⟨⟨value, t.location⟩, hvalue, rfl⟩
    · exact .inr hwrong
  · rintro ⟨kind, lexeme, location⟩ ht
    obtain rfl : kind = .endOfInput := ht
    exact ⟨_, _, starved_incompleteInputError location "expected literal", rfl⟩

end Literals

/-! ## Predicates -/

section Predicates

/-- A comparison operator is one token. -/
theorem reads_parseComparisonOperator :
    Reads parseComparisonOperator Grammar.comparisonOperator Conventions.closed := by
  refine Conventions.parses_terminal ?_ ?_ ?_
  · rintro ⟨kind, lexeme, location⟩ operator v h
    cases h <;> rfl
  · rintro ⟨kind, lexeme, location⟩ ht
    cases kind with
    | equal => exact .inl ⟨_, .equal⟩
    | notEqual => exact .inl ⟨_, .notEqual⟩
    | less => exact .inl ⟨_, .less⟩
    | lessEqual => exact .inl ⟨_, .lessEqual⟩
    | greater => exact .inl ⟨_, .greater⟩
    | greaterEqual => exact .inl ⟨_, .greaterEqual⟩
    | endOfInput => exact (ht.1 rfl).elim
    | _ =>
      exact .inr ⟨_, wrong_parserError location "expected comparison operator", fun v => ⟨_, rfl⟩⟩
  · rintro ⟨kind, lexeme, location⟩ ht
    obtain rfl : kind = .endOfInput := ht
    exact ⟨_, _, starved_incompleteInputError location "expected comparison operator", rfl⟩

/-- The rest of a predicate that has `IS`. -/
def nullTest (columnName : Identifier) : Lang Token Predicate :=
  Lang.either
    (do
      let _ ← Grammar.keyword .nullLiteral
      return ⟨columnName, .isNull, none, columnName.location⟩)
    (do
      let _ ← Grammar.keyword .not
      let _ ← Grammar.keyword .nullLiteral
      return ⟨columnName, .isNotNull, none, columnName.location⟩)

/-- `if(match_kind(...))` and what follows in both cases. -/
theorem reads_ifMatch {α : Type} {p q : Parser α} {L L' : Lang Token α} {more : Token → Prop}
    {kind : TokenKind} (hkind : kind ≠ .endOfInput) (hp : Reads p L more) (hq : Reads q L' more)
    (hfirst : ∀ t u a, L' (t :: u) a → t.kind ≠ kind)
    (hnull : ∀ a, L' [] a → ∀ t, t.kind = kind → more t) (hwaits : conventions.Waits q L' more) :
    Reads (do if ← matchKind kind then p else q)
      (Lang.either (do
        let _ ← Grammar.keyword kind
        L) L') more :=
  Conventions.parses_ifThere (fun _ _ h => matchKind_run h) (fun _ _ h => matchKind_run_of_ne h) hp
    hq hfirst hnull (fun _ ht h => hkind (h.symm.trans ht)) hwaits

theorem not_keyword_nil {α : Type} {kind : TokenKind} {L : Token → Lang Token α} {a : α} :
    ¬(Grammar.keyword kind >>= L) [] a := by
  rintro ⟨u, v, t, hsplit, ⟨rfl, -⟩, -⟩
  cases hsplit

/-- A rule that begins with a keyword. -/
theorem kind_of_keyword {α : Type} {kind : TokenKind} {L : Token → Lang Token α} {t : Token}
    {u : List Token} {a : α} (h : (Grammar.keyword kind >>= L) (t :: u) a) : t.kind = kind := by
  obtain ⟨_, v, t', hsplit, ⟨rfl, hkind⟩, -⟩ := h
  obtain ⟨rfl, -⟩ := List.cons.inj hsplit
  exact hkind

/-- A parser for no word at all. -/
theorem reads_unexpected {α : Type} (message : String) {more : Token → Prop} :
    Reads (do
      let token ← currentToken
      unexpected token message : Parser α) (fun _ _ => False) more := by
  refine ⟨fun w hw => ?_, fun _ _ _ _ hword => hword.elim⟩
  cases w with
  | nil => exact .starved fun t ht => starved_unexpected ht
  | cons t w =>
    obtain ⟨e, he, hrun⟩ := @wrong_unexpected t α (hw t (List.mem_cons_self ..)).1 message
    exact .rejected e he fun z _ => hrun (t :: w ++ z)

/-- An error at the end of the tokens asks for more. -/
theorem waits_unexpected {α : Type} (message : String) {L : Lang Token α} {more : Token → Prop} :
    conventions.Waits (do
      let token ← currentToken
      unexpected token message : Parser α) L more :=
  .inr fun _ ht => starved_unexpected ht

/-- Behind a token that is not there, the parser goes on at the end as without it. -/
theorem waits_ifMatch {α : Type} {p q : Parser α} {L L' : Lang Token α} {more : Token → Prop}
    {kind : TokenKind} (hkind : kind ≠ .endOfInput) (hwaits : conventions.Waits q L more)
    (hL : ∀ a, L [] a → L' [] a) :
    conventions.Waits (do if ← matchKind kind then p else q) L' more := by
  have hrun (t : Token) (ht : conventions.isEnd t) :
      (do if ← matchKind kind then p else q : Parser α).run [t] = q.run [t] :=
    Proc.bind_run_ok (matchKind_run_of_ne fun h => hkind (h.symm.trans ht))
  cases hwaits with
  | inl hended =>
    obtain ⟨a, hword, hmore, h⟩ := hended
    exact .inl ⟨a, hL a hword, hmore, fun t ht => (hrun t ht).trans (h t ht)⟩
  | inr hstarved =>
    refine .inr fun t ht => ?_
    rw [hrun t ht]
    exact hstarved t ht

/-- `IS NULL` or `IS NOT NULL`. -/
theorem reads_parseNullTest (columnName : Identifier) :
    Reads (parseNullTest columnName) (nullTest columnName) Conventions.closed := by
  have hnotNull : Reads (do
        let _ ← expectKind .nullLiteral "expected 'NULL' after 'IS NOT'"
        return ⟨columnName, .isNotNull, none, columnName.location⟩)
      (do
        let _ ← Grammar.keyword .nullLiteral
        return (⟨columnName, .isNotNull, none, columnName.location⟩ : Predicate))
      Conventions.closed :=
    (reads_expectKind (by decide)).bind fun _ _ _ => Conventions.parses_pure _
  have hnot := reads_ifMatch (show TokenKind.not ≠ .endOfInput by decide) hnotNull
    (reads_unexpected "expected 'NULL' or 'NOT' after 'IS'") (fun _ _ _ h => h.elim)
    (fun _ h => h.elim) (waits_unexpected _)
  refine (reads_ifMatch (show TokenKind.nullLiteral ≠ .endOfInput by decide)
    (Conventions.parses_pure _) hnot ?_ ?_ ?_).congr ?_ ?_
  · rintro t u a (h | h)
    · rw [kind_of_keyword h]
      decide
    · exact h.elim
  · rintro a (h | h)
    · exact (not_keyword_nil h).elim
    · exact h.elim
  · exact waits_ifMatch (by decide) (waits_unexpected _) fun _ => id
  · rintro u a - (h | h | h)
    · exact .inl h
    · exact .inr h
    · exact h.elim
  · rintro u a (h | h)
    · exact .inl h
    · exact .inr (.inl h)

/-- The rest of a predicate that compares. -/
def comparison (columnName : Identifier) : Lang Token Predicate := do
  let operator ← Grammar.comparisonOperator
  let literal ← Grammar.literal
  return ⟨columnName, operator, some literal, columnName.location⟩

/-- A comparison begins with its operator. -/
theorem comparison_begins {columnName : Identifier} {w : List Token} {predicate : Predicate}
    (h : comparison columnName w predicate) :
    ∃ t u operator, w = t :: u ∧ Grammar.Compares t.kind operator := by
  obtain ⟨_, v, operator, rfl, ⟨t, rfl, hcompares⟩, -⟩ := h
  exact ⟨t, v, operator, rfl, hcompares⟩

/-- A predicate is a null test or a comparison; the token behind the name tells which. -/
theorem reads_parsePredicate : Reads parsePredicate Grammar.predicate Conventions.closed := by
  have hcomparison (columnName : Identifier) : Reads (do
        let operator ← parseComparisonOperator
        let literal ← parseLiteral
        return ⟨columnName, operator, some literal, columnName.location⟩)
      (comparison columnName) Conventions.closed :=
    reads_parseComparisonOperator.bind fun _ _ _ => reads_parseLiteral.bind fun _ _ _ =>
      Conventions.parses_pure _
  have hrest (columnName : Identifier) := reads_ifMatch (show TokenKind.is ≠ .endOfInput by decide)
    (reads_parseNullTest columnName) (hcomparison columnName)
    (fun t u a h => by
      obtain ⟨_, _, operator, hsplit, hcompares⟩ := comparison_begins h
      obtain ⟨rfl, -⟩ := List.cons.inj hsplit
      generalize t.kind = kind at hcompares
      cases hcompares <;> decide)
    (fun a h => by
      obtain ⟨_, _, _, hsplit, -⟩ := comparison_begins h
      cases hsplit)
    (.inr fun ⟨kind, lexeme, location⟩ ht => by
      obtain rfl : kind = .endOfInput := ht
      exact ⟨_, _, starved_incompleteInputError location "expected comparison operator", rfl⟩)
  refine ((reads_identifier "expected column name after 'WHERE'").bind fun _ columnName _ =>
    hrest columnName).congr ?_ ?_
  · rintro _ predicate - ⟨u, _, columnName, rfl, hname, ⟨u', v, t, rfl, his, h | h⟩ | h⟩
    · exact .inr (.inl ⟨u, u' ++ v, columnName, rfl, hname, u', v, t, rfl, his, h⟩)
    · exact .inr (.inr ⟨u, u' ++ v, columnName, rfl, hname, u', v, t, rfl, his, h⟩)
    · exact .inl ⟨u, _, columnName, rfl, hname, h⟩
  · rintro _ predicate (⟨u, v, columnName, rfl, hname, h⟩ |
      ⟨u, _, columnName, rfl, hname, u', v, t, rfl, his, h⟩ |
      ⟨u, _, columnName, rfl, hname, u', v, t, rfl, his, h⟩)
    · exact ⟨u, v, columnName, rfl, hname, .inr h⟩
    · exact ⟨u, u' ++ v, columnName, rfl, hname, .inl ⟨u', v, t, rfl, his, .inl h⟩⟩
    · exact ⟨u, u' ++ v, columnName, rfl, hname, .inl ⟨u', v, t, rfl, his, .inr h⟩⟩

/-- A `WHERE` may follow, so what ends here may also go on with it. -/
theorem reads_parseOptionalWhere :
    Reads parseOptionalWhere Grammar.optionalWhere (·.kind = .where) := by
  refine reads_ifMatch (by decide)
    (reads_parsePredicate.bind fun _ _ _ => Conventions.parses_pure _) (Conventions.parses_pure none)
    ?_ ?_ (Conventions.waits_pure ⟨⟨.where, "", ⟨1, 1⟩⟩, rfl⟩)
  · rintro t u a ⟨h, -⟩
    cases h
  · exact fun _ _ _ => id

end Predicates

/-! ## Loops -/

section Loops

variable {α σ : Type}

/-- A loop over tokens is a loop of the conventions. -/
theorem whileToken_runs (continues : TokenKind → Bool) (step : σ → Parser σ) :
    Conventions.LoopRuns step (whileToken continues step) (fun t => continues t.kind = true)
      .unfinished where
  zero _ _ := rfl
  empty _ _ _ := rfl
  next n s t v h := by
    show (if continues t.kind then step s >>= whileToken continues step n else pure s).run _ = _
    rw [if_pos h]
  stop n s t v h := by
    show (if continues t.kind then step s >>= whileToken continues step n else pure s).run _ = _
    rw [if_neg h]
    rfl

/-- A loop stops in front of a token that does not make it go on. -/
theorem whileToken_stops {continues : TokenKind → Bool} {step : σ → Parser σ} {n : Nat} {s s' : σ}
    {v rest : List Token} (h : (whileToken continues step n s).run v = (.ok s', rest)) :
    ∃ t rest', rest = t :: rest' ∧ continues t.kind = false := by
  induction n generalizing s v with
  | zero => cases h
  | succ n ih =>
    cases v with
    | nil => cases h
    | cons t v =>
      by_cases ht : continues t.kind = true
      · rw [(whileToken_runs continues step).next n s t v ht, Proc.bind_run] at h
        split at h
        next s₁ v₁ _ => exact ih h
        next => cases h
      · rw [(whileToken_runs continues step).stop n s t v ht] at h
        cases h
        exact ⟨t, v, rfl, eq_false_of_ne_true ht⟩

/-- What it folds is the fold of the grammar. -/
theorem reads_repeatWhile {continues : TokenKind → Bool} {step : σ → Parser σ} {s : σ}
    {item : Lang Token α} {add : σ → α → σ} {more : Token → Prop}
    (hstep : conventions.LoopStep step item add (fun t => continues t.kind = true) more)
    (hend : continues .endOfInput = false) (hsome : ∃ kind, continues kind = true) :
    Reads (repeatWhile continues step s) (Lang.fold add s item)
      fun t => continues t.kind = true ∨ more t := by
  obtain ⟨kind, hkind⟩ := hsome
  refine Conventions.parses_loop hstep (whileToken_runs continues step) ?_
    ⟨⟨kind, "", ⟨1, 1⟩⟩, hkind⟩ ?_ ?_ fun _ => rfl
  · intro t ht h
    rw [show t.kind = .endOfInput from ht, hend] at h
    cases h
  · rintro ⟨_, h⟩
    cases h
  · rintro ⟨_, h⟩
    cases h

/-- At the end of the tokens the loop could go on. -/
theorem waits_repeatWhile {continues : TokenKind → Bool} {step : σ → Parser σ} {s : σ}
    {item : Lang Token α} {add : σ → α → σ} {more : Token → Prop}
    (hend : continues .endOfInput = false) (hsome : ∃ t, more t) :
    conventions.Waits (repeatWhile continues step s) (Lang.fold add s item) more := by
  refine .inl ⟨s, Conventions.fold_nil, hsome, fun t ht => ?_⟩
  refine (whileToken_runs continues step).stop _ s t [] fun h => ?_
  rw [show t.kind = .endOfInput from ht, hend] at h
  cases h

/-- The items of a list behind the first. -/
def commaItem (L : Lang Token α) : Lang Token α := do
  let _ ← Grammar.keyword .comma
  L

/-- Values that are appended one by one. -/
theorem foldl_append (values others : List α) :
    others.foldl (fun values value => values ++ [value]) values = values ++ others := by
  induction others generalizing values with
  | nil => exact (List.append_nil values).symm
  | cons value others ih => rw [List.foldl_cons, ih, List.append_assoc, List.singleton_append]

/-- A comma and an item are one step of a list. -/
theorem commaItem_step {item : Parser α} {L : Lang Token α} {more : Token → Prop}
    (hitem : Reads item L more) (hmore : ∀ t, t.kind = .comma → ¬more t) :
    conventions.LoopStep (fun values => do
        let _ ← consumeToken
        let value ← item
        return values ++ [value])
      (commaItem L) (fun values value => values ++ [value])
      (fun t => decide (t.kind = .comma) = true) more where
  verdict values t w ht hw := by
    have hrest := hitem.map fun value => values ++ [value]
    refine (hrest.verdict w fun t' hmem => hw t' (List.mem_cons_of_mem _ hmem)).cons
      (fun _ => rfl) ?_
    rintro _ _ ⟨u, _, value, rfl, hword, rfl, rfl⟩
    rw [List.append_nil]
    exact ⟨t :: u, [], value, (List.append_nil _).symm,
      ⟨[t], u, t, rfl, ⟨rfl, of_decide_eq_true ht⟩, hword⟩, rfl, rfl⟩
  complete values u value t v hword ht := by
    obtain ⟨_, u', c, rfl, ⟨rfl, hcomma⟩, hword⟩ := hword
    exact Proc.bind_run_ok (hitem.complete u' value t v hword ht)
  begins u value h := by
    obtain ⟨_, u', c, rfl, ⟨rfl, hcomma⟩, -⟩ := h
    exact ⟨c, u', rfl, decide_eq_true hcomma⟩
  apart t ht := hmore t (of_decide_eq_true ht)

/-- What `items` reads: the first item, then each of the others behind a comma. -/
theorem reads_items {first item : Parser α} {L : Lang Token α} {more : Token → Prop}
    (hfirst : Reads first L more) (hitem : Reads item L more)
    (hmore : ∀ t, t.kind = .comma → ¬more t) :
    Reads (items first item) (Grammar.separated L) fun t => t.kind = .comma ∨ more t := by
  have hstep := commaItem_step hitem hmore
  have hrest (value : α) := reads_repeatWhile (s := [value]) hstep rfl
    (show ∃ kind : TokenKind, decide (kind = .comma) = true from ⟨.comma, rfl⟩)
  refine ((hfirst.bindOpen (fun _ value _ => hrest value) ?_ ?_ ?_).mono ?_).congr ?_ ?_
  · rintro value t u values h ht
    obtain ⟨as, hmany, -⟩ := Lang.fold_iff.mp h
    exact hstep.apart t (Lang.many_first hstep.begins hmany) ht
  · exact fun _ _ _ _ => .inr
  · exact fun _ value _ => waits_repeatWhile rfl ⟨⟨.comma, "", ⟨1, 1⟩⟩, .inl rfl⟩
  · exact fun t => Or.imp_left of_decide_eq_true
  · rintro _ values - ⟨u, v, value, rfl, hword, h⟩
    obtain ⟨as, hmany, rfl⟩ := Lang.fold_iff.mp h
    rw [foldl_append]
    exact ⟨u, v, value, rfl, hword, v, [], as, (List.append_nil v).symm, hmany, rfl, rfl⟩
  · rintro _ _ ⟨u, _, value, rfl, hword, v, _, as, rfl, hmany, rfl, rfl⟩
    refine ⟨u, v ++ [], value, rfl, hword, Lang.fold_iff.mpr ⟨as, ?_, ?_⟩⟩
    · rwa [List.append_nil]
    · exact (foldl_append [value] as).symm

end Loops

/-! ## Column definitions -/

section Columns

/-- The type that a capacity token gives. -/
def stringTypeOf (capacityToken : Token) : Option LogicalType :=
  (capacityValue 0 capacityToken.lexeme.toList).bind fun capacity =>
    if h : capacity = 0 then none else some (.string ⟨capacity, h⟩)

/-- The capacity of a string type is checked before the closing parenthesis is read. -/
theorem reads_stringType (capacityToken : Token) :
    Reads (stringType capacityToken)
      (fun w type => w = [] ∧ stringTypeOf capacityToken = some type) Conventions.closed := by
  rw [stringType, stringTypeOf]
  cases capacityValue 0 capacityToken.lexeme.toList with
  | none => exact Conventions.parses_fail (wrong_parserError _ _) (by rintro _ _ ⟨-, ⟨⟩⟩)
  | some capacity =>
    dsimp only
    rw [LogicalType.ofCapacity, Option.bind_some]
    by_cases hzero : capacity = 0
    · rw [dif_pos hzero, dif_pos hzero]
      exact Conventions.parses_fail (wrong_parserError _ _) (by rintro _ _ ⟨-, ⟨⟩⟩)
    · rw [dif_neg hzero, dif_neg hzero]
      refine (Conventions.parses_pure _).congr ?_ ?_
      · rintro u a - ⟨rfl, rfl⟩
        exact ⟨rfl, rfl⟩
      · rintro u a ⟨rfl, h⟩
        exact ⟨rfl, (Option.some.inj h).symm⟩

/-- The capacity of a numeral is its number, if that is not zero and fits. -/
theorem stringTypeOf_eq {token : Token} {type : LogicalType}
    (h : IsNumeral token.lexeme.toList) : stringTypeOf token = some type ↔
      ∃ capacity : Capacity, type = .string capacity ∧
        capacity.val.toNat = decimalValue 0 token.lexeme.toList := by
  rw [stringTypeOf, capacityValue_eq _ h.2]
  show (if decimalValue 0 token.lexeme.toList < 2 ^ 64 then _ else _ : Option UInt64).bind _ = _ ↔ _
  constructor
  · intro hsome
    by_cases hlt : decimalValue 0 token.lexeme.toList < 2 ^ 64
    · rw [if_pos hlt, Option.bind_some] at hsome
      split at hsome
      next => cases hsome
      next hne =>
        cases hsome
        refine ⟨_, rfl, ?_⟩
        exact UInt64.toNat_ofNat_of_lt' hlt
    · rw [if_neg hlt] at hsome
      cases hsome
  · rintro ⟨⟨capacity, hne⟩, rfl, hvalue⟩
    have hlt : decimalValue 0 token.lexeme.toList < 2 ^ 64 := hvalue ▸ capacity.toNat_lt
    have heq : UInt64.ofNat (decimalValue (UInt64.toNat 0) token.lexeme.toList) = capacity := by
      rw [UInt64.toNat_zero, ← hvalue, UInt64.ofNat_toNat]
    rw [if_pos hlt, Option.bind_some, heq, dif_neg hne]

/-- A string type with its capacity. -/
theorem reads_parseStringType : Reads (do
      let typeToken ← expectKind .string ""
      let _ ← expectKind .leftParen "expected '(' after 'STRING'"
      let capacityToken ← expectKind .integerLiteral "expected capacity inside 'STRING(...)'"
      let _ ← expectKind .rightParen "expected ')' after string capacity"
      let logicalType ← stringType capacityToken
      return ⟨logicalType, typeToken.location⟩) Grammar.stringType Conventions.closed := by
  refine ((reads_expectKind (by decide)).bind fun _ typeToken _ =>
    (reads_expectKind (by decide)).bind fun _ _ _ =>
    (reads_expectKind (by decide)).bind fun _ capacityToken _ =>
    (reads_expectKind (by decide)).bind fun _ _ _ =>
    (reads_stringType capacityToken).map fun logicalType =>
      (⟨logicalType, typeToken.location⟩ : ColumnType)).congr ?_ ?_
  · rintro _ type hinside ⟨_, _, s, rfl, ⟨rfl, hs⟩, _, _, l, rfl, ⟨rfl, hl⟩, _, _, c, rfl, ⟨rfl, hc⟩,
      _, _, r, rfl, ⟨rfl, hr⟩, _, _, _, rfl, ⟨rfl, htype⟩, rfl, rfl⟩
    have hlexed : c.IsLexed := (hinside c (by simp)).2
    rw [Token.IsLexed, hc] at hlexed
    obtain ⟨capacity, rfl, hvalue⟩ := (stringTypeOf_eq hlexed).mp htype
    exact ⟨_, _, s, rfl, ⟨rfl, hs⟩, _, _, l, rfl, ⟨rfl, hl⟩, _, _, capacity, rfl,
      ⟨c, rfl, hc, hlexed, hvalue⟩, _, _, r, rfl, ⟨rfl, hr⟩, rfl, rfl⟩
  · rintro _ type ⟨_, _, s, rfl, ⟨rfl, hs⟩, _, _, l, rfl, ⟨rfl, hl⟩, _, _, capacity, rfl,
      ⟨c, rfl, hc, hnumeral, hvalue⟩, _, _, r, rfl, ⟨rfl, hr⟩, rfl, rfl⟩
    exact ⟨_, _, s, rfl, ⟨rfl, hs⟩, _, _, l, rfl, ⟨rfl, hl⟩, _, _, c, rfl, ⟨rfl, hc⟩,
      _, _, r, rfl, ⟨rfl, hr⟩, _, _, _, rfl,
      ⟨rfl, (stringTypeOf_eq hnumeral).mpr ⟨capacity, rfl, hvalue⟩⟩, rfl, rfl⟩

/-- A type that is one token. -/
theorem reads_simpleType : Reads (do
      let token ← currentToken
      match simpleType token.kind with
      | some logicalType => do
        let typeToken ← consumeToken
        return ⟨logicalType, typeToken.location⟩
      | none => unexpected token "expected column type") Grammar.simpleType Conventions.closed := by
  refine Conventions.parses_terminal ?_ ?_ ?_
  · rintro ⟨kind, lexeme, location⟩ ⟨logicalType, _⟩ v ⟨h, rfl⟩
    cases h <;> rfl
  · rintro ⟨kind, lexeme, location⟩ ht
    cases kind with
    | int8 => exact .inl ⟨⟨_, location⟩, .int8, rfl⟩
    | int16 => exact .inl ⟨⟨_, location⟩, .int16, rfl⟩
    | int32 => exact .inl ⟨⟨_, location⟩, .int32, rfl⟩
    | int64 => exact .inl ⟨⟨_, location⟩, .int64, rfl⟩
    | double => exact .inl ⟨⟨_, location⟩, .double, rfl⟩
    | bool => exact .inl ⟨⟨_, location⟩, .bool, rfl⟩
    | endOfInput => exact (ht.1 rfl).elim
    | _ => exact .inr ⟨_, wrong_parserError location "expected column type", fun v => ⟨_, rfl⟩⟩
  · rintro ⟨kind, lexeme, location⟩ ht
    obtain rfl : kind = .endOfInput := ht
    exact ⟨_, _, starved_incompleteInputError location "expected column type", rfl⟩

/-- A column type is a string type or one token. -/
theorem reads_parseColumnType : Reads parseColumnType Grammar.columnType Conventions.closed := by
  have hstring {t : Token} {v : List Token} (h : t.kind = .string) :
      parseColumnType.run (t :: v) = (do
        let typeToken ← expectKind .string ""
        let _ ← expectKind .leftParen "expected '(' after 'STRING'"
        let capacityToken ← expectKind .integerLiteral "expected capacity inside 'STRING(...)'"
        let _ ← expectKind .rightParen "expected ')' after string capacity"
        let logicalType ← stringType capacityToken
        return (⟨logicalType, typeToken.location⟩ : ColumnType) : Parser ColumnType).run
          (t :: v) := by
    obtain ⟨kind, lexeme, location⟩ := t
    obtain rfl : kind = .string := h
    rfl
  have hsimple {t : Token} {v : List Token} (h : t.kind ≠ .string) :
      parseColumnType.run (t :: v) = (do
        let token ← currentToken
        match simpleType token.kind with
        | some logicalType => do
          let typeToken ← consumeToken
          return (⟨logicalType, typeToken.location⟩ : ColumnType)
        | none => unexpected token "expected column type" : Parser ColumnType).run (t :: v) := by
    obtain ⟨kind, lexeme, location⟩ := t
    cases kind <;> first | rfl | exact (h rfl).elim
  have hbegins {t : Token} {type : LogicalType} (h : Grammar.NamesType t.kind type) :
      conventions.inside t ∧ t.kind ≠ .string := by
    obtain ⟨kind, lexeme, location⟩ := t
    cases h <;> exact ⟨⟨nofun, trivial⟩, nofun⟩
  constructor
  · rintro (_ | ⟨t, w⟩) hw
    · refine .starved ?_
      rintro ⟨kind, lexeme, location⟩ ht
      obtain rfl : kind = .endOfInput := ht
      exact ⟨_, _, starved_incompleteInputError location "expected column type", rfl⟩
    · by_cases h : t.kind = .string
      · exact (reads_parseStringType.verdict _ hw).congr (fun z _ => hstring h)
          fun _ _ _ _ => .inr
      · exact (reads_simpleType.verdict _ hw).congr (fun z _ => hsimple h) fun _ _ _ _ => .inl
  · rintro u type t v (h | h) -
    · obtain ⟨t', rfl, hnames, hlocation⟩ := h
      rw [List.singleton_append, hsimple (hbegins hnames).2]
      exact reads_simpleType.complete [t'] type t v ⟨t', rfl, hnames, hlocation⟩ id
    · cases u with
      | nil => exact (not_keyword_nil h).elim
      | cons t' u =>
        rw [List.cons_append, hstring (kind_of_keyword h)]
        exact reads_parseStringType.complete (t' :: u) type t v h id

/-- What a constraint adds to those before it. -/
def addConstraint (constraints : ColumnConstraints) : Grammar.Constraint → ColumnConstraints
  | .primaryKey => { constraints with primaryKey := true }
  | .unique => { constraints with unique := true }
  | .notNull => { constraints with notNull := true }

/-- Constraints are collected, so each may be given more than once. -/
theorem foldl_addConstraint (constraints : ColumnConstraints) (added : List Grammar.Constraint) :
    added.foldl addConstraint constraints =
      ⟨constraints.primaryKey || decide (.primaryKey ∈ added),
        constraints.unique || decide (.unique ∈ added),
        constraints.notNull || decide (.notNull ∈ added)⟩ := by
  induction added generalizing constraints with
  | nil => simp
  | cons constraint added ih =>
    rw [List.foldl_cons, ih]
    cases constraint <;> simp [addConstraint]

/-- A constraint is one step of the loop over constraints. -/
theorem constraint_step : conventions.LoopStep parseColumnConstraint Grammar.columnConstraint
    addConstraint (fun t => startsConstraint t.kind = true) Conventions.closed where
  verdict constraints t w ht hw := by
    have hrest : conventions.Inside w := fun t' hmem => hw t' (List.mem_cons_of_mem _ hmem)
    obtain ⟨kind, lexeme, location⟩ := t
    -- the keyword is taken, and the second one of two is expected
    have htwo {second : TokenKind} {message : String} (added : Grammar.Constraint)
        (hsecond : second ≠ .endOfInput)
        (hrun : ∀ v, (parseColumnConstraint constraints).run (⟨kind, lexeme, location⟩ :: v) =
          (expectKind second message >>= fun _ => pure (addConstraint constraints added)).run v)
        (hword : ∀ t, t.kind = second →
          Grammar.columnConstraint [⟨kind, lexeme, location⟩, t] added) :
        conventions.Verdict (parseColumnConstraint constraints)
          (do return addConstraint constraints (← Grammar.columnConstraint)) Conventions.closed
          (⟨kind, lexeme, location⟩ :: w) := by
      refine (((reads_expectKind hsecond).map fun _ =>
        addConstraint constraints added).verdict w hrest).cons hrun ?_
      rintro _ _ ⟨_, _, t, rfl, ⟨rfl, ht⟩, rfl, rfl⟩
      exact ⟨[⟨kind, lexeme, location⟩, t], [], added, rfl, hword t ht, rfl, rfl⟩
    cases kind with
    | primary =>
      exact htwo .primaryKey (by decide) (fun _ => rfl) fun t ht =>
        .inl ⟨[_], [t], _, rfl, ⟨rfl, rfl⟩, [t], [], t, rfl, ⟨rfl, ht⟩, rfl, rfl⟩
    | unique =>
      exact .accepted [_] w _ rfl
        ⟨[_], [], .unique, rfl, .inr (.inl ⟨[_], [], _, rfl, ⟨rfl, rfl⟩, rfl, rfl⟩), rfl, rfl⟩
        fun _ _ => rfl
    | not =>
      exact htwo .notNull (by decide) (fun _ => rfl) fun t ht =>
        .inr (.inr ⟨[_], [t], _, rfl, ⟨rfl, rfl⟩, [t], [], t, rfl, ⟨rfl, ht⟩, rfl, rfl⟩)
    | _ => cases ht
  complete constraints u added t v hword _ := by
    obtain ⟨_, _, ⟨kind, lexeme, location⟩, rfl, ⟨rfl, hkind⟩, _, _, t', rfl, ⟨rfl, ht'⟩, rfl, rfl⟩ |
      ⟨_, _, ⟨kind, lexeme, location⟩, rfl, ⟨rfl, hkind⟩, rfl, rfl⟩ |
      ⟨_, _, ⟨kind, lexeme, location⟩, rfl, ⟨rfl, hkind⟩, _, _, t', rfl, ⟨rfl, ht'⟩, rfl, rfl⟩ :=
        hword
    · obtain rfl : kind = .primary := hkind
      exact Proc.bind_run_ok (expectKind_run ht')
    · obtain rfl : kind = .unique := hkind
      rfl
    · obtain rfl : kind = .not := hkind
      exact Proc.bind_run_ok (expectKind_run ht')
  begins u added h := by
    obtain ⟨_, v, t, rfl, ⟨rfl, hkind⟩, -⟩ | ⟨_, v, t, rfl, ⟨rfl, hkind⟩, -⟩ |
      ⟨_, v, t, rfl, ⟨rfl, hkind⟩, -⟩ := h
    all_goals
      refine ⟨t, v, rfl, ?_⟩
      rw [hkind]
      rfl
  apart _ _ := id

/-- A word goes on with another constraint. -/
def moreConstraints (token : Token) : Prop := startsConstraint token.kind = true

/-- The constraints of a column. -/
theorem reads_parseColumnConstraints :
    Reads parseColumnConstraints Grammar.columnConstraints moreConstraints := by
  refine ((reads_repeatWhile constraint_step rfl ⟨.primary, rfl⟩).mono
    fun t ht => ht.resolve_right id).congr ?_ ?_
  · rintro w constraints - h
    obtain ⟨added, hmany, rfl⟩ := Lang.fold_iff.mp h
    rw [foldl_addConstraint]
    refine ⟨w, [], added, (List.append_nil w).symm, hmany, rfl, ?_⟩
    simp only [Bool.false_or]
  · rintro _ _ ⟨w, _, added, rfl, hmany, rfl, rfl⟩
    refine Lang.fold_iff.mpr ⟨added, by rwa [List.append_nil], ?_⟩
    rw [foldl_addConstraint]
    simp only [Bool.false_or]

/-- A column with its type and constraints. -/
theorem reads_parseColumnDefinition :
    Reads parseColumnDefinition Grammar.columnDefinition moreConstraints :=
  (reads_identifier _).bind fun _ _ _ => reads_parseColumnType.bind fun _ _ _ =>
    reads_parseColumnConstraints.map _

end Columns

/-! ## Statements -/

section Statements

variable {α β : Type}

/-- Something that may go on, and a keyword behind it. -/
theorem Reads.thenKeyword {p : Parser α} {L : Lang Token α} {more more' : Token → Prop}
    {kind : TokenKind} {message : String} {f : α → Token → Parser β} {M : α → Token → Lang Token β}
    (hp : Reads p L more) (hkind : kind ≠ .endOfInput) (hmore : ∀ t, t.kind = kind → ¬more t)
    (hf : ∀ a t, Reads (f a t) (M a t) more') :
    Reads (do
      let a ← p
      let t ← expectKind kind message
      f a t) (do
      let a ← L
      let t ← Grammar.keyword kind
      M a t) more' :=
  hp.bindOpen (fun _ a _ => (reads_expectKind hkind).bind fun _ t _ => hf a t)
    (fun _ t _ _ h => hmore t (kind_of_keyword h)) (fun _ _ h => (not_keyword_nil h).elim)
    fun _ _ _ => waits_expectKind hkind

theorem reads_parseCreateTableStatement :
    Reads parseCreateTableStatement Grammar.createTableStatement Conventions.closed := by
  have hcolumns := reads_items reads_parseColumnDefinition reads_parseColumnDefinition
    fun t ht h => by
      rw [moreConstraints, ht] at h
      cases h
  exact (reads_expectKind (by decide)).bind fun _ _ _ =>
    (reads_expectKind (by decide)).bind fun _ _ _ =>
    (reads_identifier _).bind fun _ _ _ =>
    (reads_expectKind (by decide)).bind fun _ _ _ =>
    hcolumns.thenKeyword (by decide)
      (fun t ht h => by
        rw [moreConstraints, ht] at h
        cases h with
        | inl h => cases h
        | inr h => cases h)
      fun _ _ => Conventions.parses_pure _

theorem reads_parseCreateIndexStatement :
    Reads parseCreateIndexStatement Grammar.createIndexStatement Conventions.closed :=
  (reads_expectKind (by decide)).bind fun _ _ _ =>
    Reads.thenKeyword (reads_matchKind (by decide)) (by decide)
      (fun t ht h => by rw [ht] at h; cases h)
      fun _ _ => (reads_identifier _).bind fun _ _ _ =>
    (reads_expectKind (by decide)).bind fun _ _ _ =>
    (reads_identifier _).bind fun _ _ _ =>
    (reads_expectKind (by decide)).bind fun _ _ _ =>
    (reads_identifier _).bind fun _ _ _ =>
    (reads_expectKind (by decide)).bind fun _ _ _ => Conventions.parses_pure _

theorem reads_parseInsertStatement :
    Reads parseInsertStatement Grammar.insertStatement Conventions.closed :=
  (reads_expectKind (by decide)).bind fun _ _ _ =>
    (reads_expectKind (by decide)).bind fun _ _ _ =>
    (reads_identifier _).bind fun _ _ _ =>
    (reads_expectKind (by decide)).bind fun _ _ _ =>
    (reads_expectKind (by decide)).bind fun _ _ _ =>
    (reads_items reads_parseLiteral reads_parseLiteral fun _ _ => id).thenKeyword (by decide)
      (fun t ht h => by
        rw [ht] at h
        cases h with
        | inl h => cases h
        | inr h => exact h)
      fun _ _ => Conventions.parses_pure _

/-- A list of names begins with a name. -/
theorem separated_name_begins {w : List Token} {columns : List Identifier}
    (h : Grammar.separated Grammar.name w columns) : ∃ t u others, w = t :: u ∧
      t.kind = .identifier ∧ columns = ⟨t.lexeme, t.location⟩ :: others := by
  obtain ⟨_, v, _, rfl, ⟨_, _, t, rfl, ⟨rfl, hkind⟩, rfl, rfl⟩, _, _, others, rfl, -, rfl, rfl⟩ := h
  exact ⟨t, _, others, rfl, hkind, rfl⟩

/-- A projection is `*` or a list of names. -/
theorem reads_parseSelectProjection :
    Reads parseSelectProjection Grammar.projection (·.kind = .comma) := by
  have hnames := (reads_items (reads_identifier "expected '*' or column name after 'SELECT'")
    (reads_identifier "expected column name after ','") fun _ _ => id).mono
      fun t ht => ht.resolve_right id
  have hall {t : Token} {v : List Token} (h : t.kind = .asterisk) :
      parseSelectProjection.run (t :: v) = (.ok (.all t.location), v) := by
    obtain ⟨kind, lexeme, location⟩ := t
    obtain rfl : kind = .asterisk := h
    rfl
  have hcolumns {t : Token} {v : List Token} (h : t.kind ≠ .asterisk) :
      parseSelectProjection.run (t :: v) =
        (items (identifier "expected '*' or column name after 'SELECT'")
            (identifier "expected column name after ','") >>= fun columns =>
          pure (.columns columns t.location) : Parser SelectProjection).run (t :: v) :=
    Proc.bind_run_ok (matchKind_run_of_ne h)
  constructor
  · rintro (_ | ⟨t, w⟩) hw
    · refine .starved ?_
      rintro ⟨kind, lexeme, location⟩ ht
      obtain rfl : kind = .endOfInput := ht
      exact ⟨_, _, starved_incompleteInputError location
        "expected '*' or column name after 'SELECT'", rfl⟩
    · by_cases h : t.kind = .asterisk
      · exact .accepted [t] w (.all t.location) rfl (.inl ⟨[t], [], t, rfl, ⟨rfl, h⟩, rfl, rfl⟩)
          fun _ _ => hall h
      · refine ((hnames.map fun columns =>
          SelectProjection.columns columns t.location).verdict _ hw).congr (fun z _ => hcolumns h) ?_
        rintro _ v _ hsplit ⟨u, _, columns, rfl, hword, rfl, rfl⟩
        obtain ⟨t', u', others, rfl, -, rfl⟩ := separated_name_begins hword
        obtain ⟨rfl, -⟩ := List.cons.inj hsplit
        rw [List.append_nil]
        exact .inr ⟨_, others, hword, rfl⟩
  · rintro u a t v (⟨_, _, t', rfl, ⟨rfl, h⟩, rfl, rfl⟩ | ⟨first, others, hword, rfl⟩) ht
    · exact hall h
    · obtain ⟨t', u', others', rfl, hkind, heq⟩ := separated_name_begins hword
      obtain ⟨rfl, rfl⟩ := List.cons.inj heq
      rw [List.cons_append, hcolumns (by rw [hkind]; decide), ← List.cons_append,
        Proc.bind_run_ok (hnames.complete _ _ t v hword ht)]
      rfl

theorem reads_parseSelectStatement :
    Reads parseSelectStatement Grammar.selectStatement (·.kind = .where) :=
  (reads_expectKind (by decide)).bind fun _ _ _ =>
    reads_parseSelectProjection.thenKeyword (by decide) (fun t ht h => by rw [ht] at h; cases h)
      fun _ _ => (reads_identifier _).bind fun _ _ _ => reads_parseOptionalWhere.map _

theorem reads_parseUpdateStatement :
    Reads parseUpdateStatement Grammar.updateStatement (·.kind = .where) :=
  (reads_expectKind (by decide)).bind fun _ _ _ =>
    (reads_identifier _).bind fun _ _ _ =>
    (reads_expectKind (by decide)).bind fun _ _ _ =>
    (reads_identifier _).bind fun _ _ _ =>
    (reads_expectKind (by decide)).bind fun _ _ _ =>
    reads_parseLiteral.bind fun _ _ _ => reads_parseOptionalWhere.map _

theorem reads_parseDeleteStatement :
    Reads parseDeleteStatement Grammar.deleteStatement (·.kind = .where) :=
  (reads_expectKind (by decide)).bind fun _ _ _ =>
    (reads_expectKind (by decide)).bind fun _ _ _ =>
    (reads_identifier _).bind fun _ _ _ => reads_parseOptionalWhere.map _

theorem reads_parseDropTableStatement :
    Reads parseDropTableStatement Grammar.dropTableStatement Conventions.closed :=
  (reads_expectKind (by decide)).bind fun _ _ _ =>
    (reads_expectKind (by decide)).bind fun _ _ _ => (reads_identifier _).map _

theorem reads_parseDropIndexStatement :
    Reads parseDropIndexStatement Grammar.dropIndexStatement Conventions.closed :=
  (reads_expectKind (by decide)).bind fun _ _ _ =>
    (reads_expectKind (by decide)).bind fun _ _ _ => (reads_identifier _).map _

/-! ### The choice of a statement -/

section Choice

variable {t next : Token} {v w : List Token}

/-- The token behind `CREATE` tells what is created. -/
theorem parseStatement_createTable (h : t.kind = .create) (hnext : next.kind = .table) :
    parseStatement.run (t :: next :: v) =
      (parseCreateTableStatement >>= fun statement => pure (.createTable statement) :
        Parser Statement).run (t :: next :: v) := by
  obtain ⟨kind, lexeme, location⟩ := t
  obtain rfl : kind = .create := h
  show (if next.kind = .table then _ else _ : Parser Statement).run _ = _
  rw [if_pos hnext]

theorem parseStatement_createIndex (h : t.kind = .create) (hnext : next.kind ≠ .table) :
    parseStatement.run (t :: next :: v) = parseCreateIndexStatement.run (t :: next :: v) := by
  obtain ⟨kind, lexeme, location⟩ := t
  obtain rfl : kind = .create := h
  show (if next.kind = .table then _ else _ : Parser Statement).run _ = _
  rw [if_neg hnext]

/-- The token behind `DROP` tells what is dropped. -/
theorem parseStatement_dropTable (h : t.kind = .drop) (hnext : next.kind = .table) :
    parseStatement.run (t :: next :: v) = parseDropTableStatement.run (t :: next :: v) := by
  obtain ⟨kind, lexeme, location⟩ := t
  obtain rfl : kind = .drop := h
  show (if next.kind = .table then _ else _ : Parser Statement).run _ = _
  rw [if_pos hnext]

theorem parseStatement_dropIndex (h : t.kind = .drop) (hnext : next.kind ≠ .table) :
    parseStatement.run (t :: next :: v) = parseDropIndexStatement.run (t :: next :: v) := by
  obtain ⟨kind, lexeme, location⟩ := t
  obtain rfl : kind = .drop := h
  show (if next.kind = .table then _ else _ : Parser Statement).run _ = _
  rw [if_neg hnext]

/-- What comes behind `CREATE` or `DROP` decides, and without it the input is incomplete. -/
theorem verdict_create (h : t.kind = .create) (hw : conventions.Inside (t :: w)) :
    conventions.Verdict parseStatement Grammar.statement (·.kind = .where) (t :: w) := by
  cases w with
  | nil =>
    refine .starved ?_
    rintro ⟨kind', lexeme', location'⟩ ht
    obtain rfl : kind' = .endOfInput := ht
    obtain ⟨kind, lexeme, location⟩ := t
    obtain rfl : kind = .create := h
    exact ⟨_, _, starved_incompleteInputError location' "expected 'INDEX' after 'CREATE'", rfl⟩
  | cons next w =>
    by_cases hnext : next.kind = .table
    · refine (((reads_parseCreateTableStatement.map Statement.createTable).verdict _ hw).congr
        (fun z _ => parseStatement_createTable h hnext) ?_).mono fun _ => False.elim
      rintro _ v _ - ⟨u, _, statement, rfl, hword, rfl, rfl⟩
      rw [List.append_nil]
      exact .createTable hword
    · exact ((reads_parseCreateIndexStatement.verdict _ hw).congr
        (fun z _ => parseStatement_createIndex h hnext) fun _ _ _ _ => .createIndex).mono
          fun _ => False.elim

theorem verdict_drop (h : t.kind = .drop) (hw : conventions.Inside (t :: w)) :
    conventions.Verdict parseStatement Grammar.statement (·.kind = .where) (t :: w) := by
  cases w with
  | nil =>
    refine .starved ?_
    rintro ⟨kind', lexeme', location'⟩ ht
    obtain rfl : kind' = .endOfInput := ht
    obtain ⟨kind, lexeme, location⟩ := t
    obtain rfl : kind = .drop := h
    exact ⟨_, _, starved_incompleteInputError location' "expected 'INDEX' after 'DROP'", rfl⟩
  | cons next w =>
    by_cases hnext : next.kind = .table
    · exact ((reads_parseDropTableStatement.verdict _ hw).congr
        (fun z _ => parseStatement_dropTable h hnext) fun _ _ _ _ => .dropTable).mono
          fun _ => False.elim
    · exact ((reads_parseDropIndexStatement.verdict _ hw).congr
        (fun z _ => parseStatement_dropIndex h hnext) fun _ _ _ _ => .dropIndex).mono
          fun _ => False.elim

/-- Every statement is parsed as the grammar says. -/
theorem verdict_parseStatement (hw : conventions.Inside (t :: w)) :
    conventions.Verdict parseStatement Grammar.statement (·.kind = .where) (t :: w) := by
  have hinside := (hw t (List.mem_cons_self ..)).1
  obtain ⟨kind, lexeme, location⟩ := t
  cases kind with
  | create => exact verdict_create rfl hw
  | drop => exact verdict_drop rfl hw
  | insert =>
    exact ((reads_parseInsertStatement.mono fun _ => False.elim).verdict _ hw).congr
      (fun _ _ => rfl) fun _ _ _ _ => .insert
  | select =>
    exact (reads_parseSelectStatement.verdict _ hw).congr (fun _ _ => rfl) fun _ _ _ _ => .select
  | update =>
    exact (reads_parseUpdateStatement.verdict _ hw).congr (fun _ _ => rfl) fun _ _ _ _ => .update
  | delete =>
    exact (reads_parseDeleteStatement.verdict _ hw).congr (fun _ _ => rfl) fun _ _ _ _ => .delete
  | begin =>
    exact .accepted [_] w _ rfl (.transaction ⟨_, rfl, .inl ⟨rfl, rfl⟩⟩) fun _ _ => rfl
  | commit =>
    exact .accepted [_] w _ rfl (.transaction ⟨_, rfl, .inr (.inl ⟨rfl, rfl⟩)⟩) fun _ _ => rfl
  | rollback =>
    exact .accepted [_] w _ rfl (.transaction ⟨_, rfl, .inr (.inr (.inl ⟨rfl, rfl⟩))⟩)
      fun _ _ => rfl
  | checkpoint =>
    exact .accepted [_] w _ rfl (.transaction ⟨_, rfl, .inr (.inr (.inr ⟨rfl, rfl⟩))⟩)
      fun _ _ => rfl
  | endOfInput => exact (hinside rfl).elim
  | _ => exact .rejected _ (wrong_parserError location "expected statement") fun _ _ => ⟨_, rfl⟩

/-- A statement that could be completed is incomplete input. -/
theorem complete_parseStatement {statement : Statement} (h : Grammar.statement w statement)
    (ht : t.kind ≠ .where) : parseStatement.run (w ++ t :: v) = (.ok statement, t :: v) := by
  cases h with
  | createTable h =>
    have hrun := (reads_parseCreateTableStatement.map Statement.createTable).complete w _ t v
      ⟨w, [], _, (List.append_nil w).symm, h, rfl, rfl⟩ id
    obtain ⟨_, _, c, rfl, ⟨rfl, hc⟩, _, _, next, rfl, ⟨rfl, hnext⟩, -⟩ := h
    exact (parseStatement_createTable hc hnext).trans hrun
  | createIndex h =>
    have hrun := reads_parseCreateIndexStatement.complete w _ t v h id
    obtain ⟨_, _, c, rfl, ⟨rfl, hc⟩, _, _, unique, rfl, hunique, _, _, next, rfl, ⟨rfl, hnext⟩, -⟩ := h
    obtain ⟨rfl, rfl⟩ | ⟨next', rfl, hnext', rfl⟩ := hunique
    · exact (parseStatement_createIndex hc (by rw [hnext]; decide)).trans hrun
    · exact (parseStatement_createIndex hc (by rw [hnext']; decide)).trans hrun
  | dropTable h =>
    have hrun := reads_parseDropTableStatement.complete w _ t v h id
    obtain ⟨_, _, c, rfl, ⟨rfl, hc⟩, _, _, next, rfl, ⟨rfl, hnext⟩, -⟩ := h
    exact (parseStatement_dropTable hc hnext).trans hrun
  | dropIndex h =>
    have hrun := reads_parseDropIndexStatement.complete w _ t v h id
    obtain ⟨_, _, c, rfl, ⟨rfl, hc⟩, _, _, next, rfl, ⟨rfl, hnext⟩, -⟩ := h
    exact (parseStatement_dropIndex hc (by rw [hnext]; decide)).trans hrun
  | insert h =>
    have hrun := reads_parseInsertStatement.complete w _ t v h id
    obtain ⟨_, _, ⟨kind, lexeme, location⟩, rfl, ⟨rfl, hkind⟩, -⟩ := h
    obtain rfl : kind = .insert := hkind
    exact hrun
  | select h =>
    have hrun := reads_parseSelectStatement.complete w _ t v h ht
    obtain ⟨_, _, ⟨kind, lexeme, location⟩, rfl, ⟨rfl, hkind⟩, -⟩ := h
    obtain rfl : kind = .select := hkind
    exact hrun
  | update h =>
    have hrun := reads_parseUpdateStatement.complete w _ t v h ht
    obtain ⟨_, _, ⟨kind, lexeme, location⟩, rfl, ⟨rfl, hkind⟩, -⟩ := h
    obtain rfl : kind = .update := hkind
    exact hrun
  | delete h =>
    have hrun := reads_parseDeleteStatement.complete w _ t v h ht
    obtain ⟨_, _, ⟨kind, lexeme, location⟩, rfl, ⟨rfl, hkind⟩, -⟩ := h
    obtain rfl : kind = .delete := hkind
    exact hrun
  | transaction h =>
    obtain ⟨⟨kind, lexeme, location⟩, rfl, ⟨hkind, rfl⟩ | ⟨hkind, rfl⟩ | ⟨hkind, rfl⟩ |
      ⟨hkind, rfl⟩⟩ := h
    all_goals
      obtain rfl := (hkind : kind = _)
      rfl

/-- A statement begins with a token before the end of the input. -/
theorem statement_begins {statement : Statement} (h : Grammar.statement w statement) :
    ∃ t u, w = t :: u ∧ t.kind ≠ .endOfInput := by
  have hkeyword {kind : TokenKind} {α : Type} {L : Token → Lang Token α} {a : α}
      (h : (Grammar.keyword kind >>= L) w a) (hkind : kind ≠ .endOfInput) :
      ∃ t u, w = t :: u ∧ t.kind ≠ .endOfInput := by
    obtain ⟨_, v, t, rfl, ⟨rfl, ht⟩, -⟩ := h
    exact ⟨t, v, rfl, ht ▸ hkind⟩
  cases h with
  | createTable h => exact hkeyword h (by decide)
  | dropTable h => exact hkeyword h (by decide)
  | createIndex h => exact hkeyword h (by decide)
  | dropIndex h => exact hkeyword h (by decide)
  | insert h => exact hkeyword h (by decide)
  | select h => exact hkeyword h (by decide)
  | update h => exact hkeyword h (by decide)
  | delete h => exact hkeyword h (by decide)
  | transaction h =>
    obtain ⟨t, rfl, ⟨ht, -⟩ | ⟨ht, -⟩ | ⟨ht, -⟩ | ⟨ht, -⟩⟩ := h
    all_goals exact ⟨t, [], rfl, by rw [ht]; decide⟩

end Choice

/-- A statement and its semicolon. -/
def closedStatement : Lang Token Statement := do
  let statement ← Grammar.statement
  let _ ← Grammar.keyword .semicolon
  return statement

/-- A statement and its semicolon are one step of the loop over statements. -/
theorem statement_step : conventions.LoopStep (fun statements => do
      let statement ← parseStatement
      let _ ← expectKind .semicolon "expected ';' after statement"
      return statements ++ [statement])
    closedStatement (fun statements statement => statements ++ [statement])
    (fun t => decide (t.kind ≠ .endOfInput) = true) Conventions.closed where
  verdict statements t w _ hw := by
    refine ((verdict_parseStatement hw).bind (fun u v statement hsplit _ =>
      ((reads_expectKind (by decide)).map fun _ => statements ++ [statement]).verdict v ?_)
      fun _ _ _ => waits_expectKind (by decide)).congr (fun _ _ => rfl) ?_
    · rw [hsplit] at hw
      exact hw.append_right
    · rintro _ _ _ - ⟨u, _, statement, rfl, hword, v, _, t', rfl, ht', rfl, rfl⟩
      exact ⟨u ++ (v ++ []), [], statement, (List.append_nil _).symm,
        ⟨u, v ++ [], statement, rfl, hword, v, [], t', rfl, ht', rfl, rfl⟩, rfl, rfl⟩
  complete statements u statement t v hword _ := by
    obtain ⟨u, _, statement, rfl, hword, _, _, t', rfl, ⟨rfl, ht'⟩, rfl, rfl⟩ := hword
    rw [List.append_nil, List.append_assoc, List.singleton_append,
      Proc.bind_run_ok (complete_parseStatement hword (by rw [ht']; decide)),
      Proc.bind_run_ok (expectKind_run ht')]
    rfl
  begins u statement h := by
    obtain ⟨_, v, statement, rfl, h, -⟩ := h
    obtain ⟨t, u, rfl, ht⟩ := statement_begins h
    exact ⟨t, u ++ v, rfl, decide_eq_true ht⟩
  apart _ _ := id

/-- A text is a list of statements. -/
theorem reads_parseStatements :
    Reads parseStatements Grammar.statements (·.kind ≠ .endOfInput) := by
  refine ((reads_repeatWhile statement_step rfl ⟨.begin, rfl⟩).mono
    fun t ht => of_decide_eq_true (ht.resolve_right id)).congr ?_ ?_
  · rintro w statements - h
    obtain ⟨as, hmany, rfl⟩ := Lang.fold_iff.mp h
    rw [foldl_append]
    exact hmany
  · intro w statements hmany
    refine Lang.fold_iff.mpr ⟨statements, hmany, ?_⟩
    rw [foldl_append, List.nil_append]

end Statements

/-! ## Whole inputs -/

section Inputs

variable {tokens more : List Token} {last last' : Token}

/-- The tokens of a text without the end of the input. -/
abbrev Lexed (tokens : List Token) : Prop := conventions.Inside tokens

/-- What the parser makes of some tokens: the words of the grammar, or an error that
says whether there could be more. -/
theorem parse_cases (htokens : Lexed tokens) (hlast : last.kind = .endOfInput) :
    (∃ statements, Grammar.statements tokens statements ∧
      parse (tokens ++ [last]) = .ok statements) ∨
    (∃ message, parse (tokens ++ [last]) = .error (.status (.ParseError message)) ∧
      ∀ more last', parse (tokens ++ more ++ [last']) = .error (.status (.ParseError message))) ∨
    ∃ message, parse (tokens ++ [last]) = .error (.status (.IncompleteInput message)) := by
  cases reads_parseStatements.verdict tokens htokens with
  | accepted u v statements hsplit hword hrun =>
    have h := hrun [last] (List.cons_ne_nil _ _)
    obtain ⟨t, rest, hstop, ht⟩ := whileToken_stops (show (whileToken _ _ _ _).run _ = _ from h)
    cases v with
    | nil =>
      rw [List.append_nil] at hsplit
      exact .inl ⟨statements, hsplit ▸ hword, congrArg Prod.fst h⟩
    | cons t' v =>
      obtain ⟨rfl, -⟩ := List.cons.inj hstop
      have hinside := (htokens t' (by rw [hsplit]; simp)).1
      exact (hinside (not_not.mp (of_decide_eq_false ht))).elim
  | rejected e he hrun =>
    obtain ⟨message, rfl⟩ := he
    have herror (z : List Token) (hz : z ≠ []) :
        parse (tokens ++ z) = .error (.status (.ParseError message)) := by
      obtain ⟨rest, h⟩ := hrun z hz
      exact congrArg Prod.fst h
    refine .inr (.inl ⟨message, herror [last] (List.cons_ne_nil _ _), fun more last' => ?_⟩)
    rw [List.append_assoc]
    exact herror (more ++ [last']) (by simp)
  | ended statements hword _ hrun =>
    exact .inl ⟨statements, hword, congrArg Prod.fst (hrun last hlast)⟩
  | starved hrun =>
    obtain ⟨e, rest, ⟨message, rfl⟩, h⟩ := hrun last hlast
    exact .inr (.inr ⟨message, congrArg Prod.fst h⟩)

/-- The parser accepts exactly the words of the grammar and returns their trees.  On
any other tokens it reports an error: it looks at no token behind the last one, and
its loops end. -/
theorem parse_iff (htokens : Lexed tokens) (hlast : last.kind = .endOfInput) :
    (∀ statements, parse (tokens ++ [last]) = .ok statements ↔
      Grammar.statements tokens statements) ∧
    ∀ failure, parse (tokens ++ [last]) = .error failure →
      ∃ message, failure = .status (.ParseError message) ∨
        failure = .status (.IncompleteInput message) := by
  have haccepts {statements : List Statement} (h : Grammar.statements tokens statements) :
      parse (tokens ++ [last]) = .ok statements :=
    congrArg Prod.fst (reads_parseStatements.complete tokens statements last [] h
      (not_not.mpr hlast))
  constructor
  · refine fun statements => ⟨fun h => ?_, haccepts⟩
    obtain ⟨other, hword, hparse⟩ | ⟨message, hparse, -⟩ | ⟨message, hparse⟩ :=
      parse_cases htokens hlast
    · rw [h] at hparse
      exact Except.ok.inj hparse ▸ hword
    · rw [h] at hparse
      cases hparse
    · rw [h] at hparse
      cases hparse
  · intro failure h
    obtain ⟨other, -, hparse⟩ | ⟨message, hparse, -⟩ | ⟨message, hparse⟩ :=
      parse_cases htokens hlast
    · rw [h] at hparse
      cases hparse
    · exact ⟨message, .inl (Except.error.inj (h.symm.trans hparse))⟩
    · exact ⟨message, .inr (Except.error.inj (h.symm.trans hparse))⟩

/-- The tokens of `INSERT INTO t VALUES (7, true);`. -/
def insertTokens : List Token :=
  [⟨.insert, "INSERT", ⟨1, 1⟩⟩, ⟨.into, "INTO", ⟨1, 8⟩⟩, ⟨.identifier, "t", ⟨1, 13⟩⟩,
    ⟨.values, "VALUES", ⟨1, 15⟩⟩, ⟨.leftParen, "(", ⟨1, 22⟩⟩, ⟨.integerLiteral, "7", ⟨1, 23⟩⟩,
    ⟨.comma, ",", ⟨1, 24⟩⟩, ⟨.booleanLiteral, "true", ⟨1, 26⟩⟩, ⟨.rightParen, ")", ⟨1, 30⟩⟩,
    ⟨.semicolon, ";", ⟨1, 31⟩⟩]

theorem parse_iff_small : Grammar.statements insertTokens
    [.insert ⟨⟨"t", ⟨1, 13⟩⟩, [⟨.integer 7, ⟨1, 23⟩⟩, ⟨.boolean true, ⟨1, 26⟩⟩], ⟨1, 1⟩⟩] := by
  have hlexed : Lexed insertTokens := by
    have htrue : upper "true".toList = "TRUE".toList := by decide
    simp [Lexed, Conventions.Inside, insertTokens, conventions, Token.IsLexed, IsNumeral]
    exact .inl htrue
  exact ((parse_iff hlexed (show (⟨.endOfInput, "", ⟨1, 32⟩⟩ : Token).kind = .endOfInput from
    rfl)).1 _).mp (by decide)

end Inputs

end Parser

end DanDB.Sql
