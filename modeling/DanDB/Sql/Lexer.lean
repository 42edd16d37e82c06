import DanDB.Core.Status
import DanDB.Sql.Locations

/-!
# The lexer

The lexer goes through a text once, from left to right.  A text may be cut at a line
break: apart from a string that goes over the cut, the tokens of the two parts are
those of the whole.
-/

namespace DanDB.Sql

open DanDB.Core Record

/-- The location behind a character. -/
def SourceLocation.advance (location : SourceLocation) (ch : Char) : SourceLocation :=
  if ch = '\n' then ⟨location.line + 1, 1⟩ else ⟨location.line, location.column + 1⟩

namespace Lexer

def isAsciiLetter (ch : Char) : Bool := 'a' ≤ ch && ch ≤ 'z' || 'A' ≤ ch && ch ≤ 'Z'

/-- A character of a word behind the first. -/
def isWordCharacter (ch : Char) : Bool := isAsciiLetter ch || ch.isDigit || ch = '_'

/-- The character that a string literal stands between. -/
def quote : Char := Char.ofNat 39

/-- The keywords of `RESERVED_WORD_KINDS`. -/
def reservedWordKinds : List (String × TokenKind) :=
  [("CREATE", .create), ("TABLE", .table), ("PRIMARY", .primary), ("KEY", .key),
    ("UNIQUE", .unique), ("DROP", .drop), ("INDEX", .index), ("ON", .on), ("INSERT", .insert),
    ("INTO", .into), ("VALUES", .values), ("SELECT", .select), ("FROM", .from),
    ("WHERE", .where), ("UPDATE", .update), ("SET", .set), ("DELETE", .delete),
    ("BEGIN", .begin), ("COMMIT", .commit), ("ROLLBACK", .rollback),
    ("CHECKPOINT", .checkpoint), ("INT8", .int8), ("INT16", .int16), ("INT32", .int32),
    ("INT64", .int64), ("DOUBLE", .double), ("STRING", .string), ("BOOL", .bool), ("IS", .is),
    ("NOT", .not), ("TRUE", .booleanLiteral), ("FALSE", .booleanLiteral), ("NULL", .nullLiteral)]

/-- `make_lexer_error` -/
def lexerError (location : SourceLocation) (message : String) : Status :=
  .ParseError s!"SQL error at line {location.line}, column {location.column}: {message}"

/-- `make_incomplete_input_error` -/
def incompleteInputError (location : SourceLocation) (message : String) : Status :=
  .IncompleteInput s!"SQL error at line {location.line}, column {location.column}: {message}"

/-- What `tokenize_next` finds at a character: a token, unless it is white space, and
how many characters it consumes behind the first. -/
structure Found where
  token : Option (TokenKind × List Char)
  further : Nat
deriving DecidableEq

/-- A token that is all that is consumed. -/
def current (kind : TokenKind) (ch : Char) (further : List Char) : Found :=
  ⟨some (kind, ch :: further), further.length⟩

/-- A comparison with or without an equals sign behind it. -/
def tokenizeComparison (withEqual without : TokenKind) (ch : Char) (rest : List Char) : Found :=
  if rest.head? = some '=' then current withEqual ch ['='] else current without ch []

def tokenizeIdentifierOrReservedWord (ch : Char) (rest : List Char) : Found :=
  let further := rest.takeWhile isWordCharacter
  match reservedWordKinds.lookup (String.ofList (upper (ch :: further))) with
  | none => current .identifier ch further
  | some kind => current kind ch further

def tokenizeNumber (startLocation : SourceLocation) (ch : Char) (rest : List Char) :
    Result Found :=
  let integral := rest.takeWhile Char.isDigit
  match rest.dropWhile Char.isDigit with
  | '.' :: behind =>
    let fraction := behind.takeWhile Char.isDigit
    if fraction = [] then
      .error (lexerError startLocation
        "invalid double literal: expected a digit after decimal point")
    else .ok (current .doubleLiteral ch (integral ++ '.' :: fraction))
  | _ => .ok (current .integerLiteral ch integral)

def tokenizeString (startLocation : SourceLocation) (rest : List Char) : Result Found :=
  let lexeme := rest.takeWhile (· ≠ quote)
  if lexeme.length = rest.length then
    .error (incompleteInputError startLocation "unterminated string literal")
  else .ok ⟨some (.stringLiteral, lexeme), lexeme.length + 1⟩

/-- The tokens of one character. -/
def singleKind : Char → Option TokenKind
  | ';' => some .semicolon
  | ',' => some .comma
  | '(' => some .leftParen
  | ')' => some .rightParen
  | '*' => some .asterisk
  | '=' => some .equal
  | _ => none

def tokenizeNext (startLocation : SourceLocation) (ch : Char) (rest : List Char) :
    Result Found :=
  match singleKind ch with
  | some kind => .ok (current kind ch [])
  | none =>
    if ch = '<' then .ok (tokenizeComparison .lessEqual .less ch rest)
    else if ch = '>' then .ok (tokenizeComparison .greaterEqual .greater ch rest)
    else if ch = '!' then
      if rest.head? = some '=' then .ok (current .notEqual ch ['='])
      else .error (lexerError startLocation "unexpected '!': expected '='")
    else if ch = ' ' ∨ ch = '\r' ∨ ch = '\t' ∨ ch = '\n' then .ok ⟨none, 0⟩
    else if ch = quote then tokenizeString startLocation rest
    else if ch.isDigit then tokenizeNumber startLocation ch rest
    else if isAsciiLetter ch ∨ ch = '_' then .ok (tokenizeIdentifierOrReservedWord ch rest)
    else .error (lexerError startLocation s!"unexpected character '{ch}'")

def Found.tokens (found : Found) (location : SourceLocation) : List Token :=
  match found.token with
  | none => []
  | some (kind, lexeme) => [⟨kind, String.ofList lexeme, location⟩]

/-- The loop of `tokenize`; `skip` of the characters have been consumed already. -/
def tokenizeFrom : Nat → SourceLocation → List Char → Result (List Token)
  | _, location, [] => .ok [⟨.endOfInput, "", location⟩]
  | skip + 1, location, ch :: rest => tokenizeFrom skip (location.advance ch) rest
  | 0, location, ch :: rest => do
    let found ← tokenizeNext location ch rest
    let tokens ← tokenizeFrom found.further (location.advance ch) rest
    return found.tokens location ++ tokens

def tokenize (source : String) : Result (List Token) := tokenizeFrom 0 ⟨1, 1⟩ source.toList

example : tokenize "SELECT * FROM t\nWHERE a>=1.50;" = .ok
    [⟨.select, "SELECT", ⟨1, 1⟩⟩, ⟨.asterisk, "*", ⟨1, 8⟩⟩, ⟨.from, "FROM", ⟨1, 10⟩⟩,
      ⟨.identifier, "t", ⟨1, 15⟩⟩, ⟨.where, "WHERE", ⟨2, 1⟩⟩, ⟨.identifier, "a", ⟨2, 7⟩⟩,
      ⟨.greaterEqual, ">=", ⟨2, 8⟩⟩, ⟨.doubleLiteral, "1.50", ⟨2, 10⟩⟩,
      ⟨.semicolon, ";", ⟨2, 14⟩⟩, ⟨.endOfInput, "", ⟨2, 15⟩⟩] := by
  decide +kernel

/-! ## Tokens -/

section Tokens

variable {location location' : SourceLocation} {ch : Char} {rest : List Char} {found : Found}

/-- What stands in a token of the kind. -/
theorem reservedWordKinds_kind {word : String} {kind : TokenKind}
    (h : reservedWordKinds.lookup word = some kind) :
    kind ≠ .endOfInput ∧ kind ≠ .integerLiteral ∧ kind ≠ .doubleLiteral ∧
      (kind = .booleanLiteral → word = "TRUE" ∨ word = "FALSE") := by
  obtain ⟨before, after, hsplit, -⟩ := List.lookup_eq_some_iff.mp h
  have hmem : (word, kind) ∈ reservedWordKinds := hsplit ▸ by simp
  have hall : ∀ entry ∈ reservedWordKinds, entry.2 ≠ .endOfInput ∧ entry.2 ≠ .integerLiteral ∧
      entry.2 ≠ .doubleLiteral ∧
      (entry.2 = .booleanLiteral → entry.1 = "TRUE" ∨ entry.1 = "FALSE") := by
    decide
  exact hall _ hmem

/-- The characters of a token are those of its kind. -/
def Spells (kind : TokenKind) (lexeme : List Char) : Prop :=
  kind ≠ .endOfInput ∧ ∀ location, Token.IsLexed ⟨kind, String.ofList lexeme, location⟩

theorem spells_of_ne {kind : TokenKind} {lexeme : List Char} (hend : kind ≠ .endOfInput)
    (hinteger : kind ≠ .integerLiteral) (hdouble : kind ≠ .doubleLiteral)
    (hboolean : kind = .booleanLiteral → upper lexeme = "TRUE".toList ∨
      upper lexeme = "FALSE".toList) : Spells kind lexeme := by
  refine ⟨hend, fun location => ?_⟩
  rw [Token.IsLexed]
  cases kind with
  | integerLiteral => exact absurd rfl hinteger
  | doubleLiteral => exact absurd rfl hdouble
  | booleanLiteral =>
    simp only [String.toList_ofList]
    exact hboolean rfl
  | _ => trivial

/-- What a found token consists of. -/
inductive Finds (ch : Char) (rest : List Char) : Found → Prop
  | skipped : Finds ch rest ⟨none, 0⟩
  | token {kind further} (hspells : Spells kind (ch :: further)) (hfurther : further <+: rest) :
    Finds ch rest (current kind ch further)
  | string {lexeme : List Char} (hlength : lexeme.length < rest.length) :
    Finds ch rest ⟨some (.stringLiteral, lexeme), lexeme.length + 1⟩

theorem finds_comparison {withEqual without : TokenKind}
    (hwith : Spells withEqual [ch, '=']) (hwithout : Spells without [ch]) :
    Finds ch rest (tokenizeComparison withEqual without ch rest) := by
  rw [tokenizeComparison]
  split
  · rename_i hhead
    cases rest with
    | nil => cases hhead
    | cons c rest =>
      obtain rfl := Option.some.inj hhead
      exact .token hwith ⟨rest, rfl⟩
  · exact .token hwithout List.nil_prefix

theorem finds_word : Finds ch rest (tokenizeIdentifierOrReservedWord ch rest) := by
  rw [tokenizeIdentifierOrReservedWord]
  split
  · exact .token (spells_of_ne (by decide) (by decide) (by decide) nofun)
      (List.takeWhile_prefix _)
  · rename_i kind hlookup
    obtain ⟨hend, hinteger, hdouble, hboolean⟩ := reservedWordKinds_kind hlookup
    refine .token (spells_of_ne hend hinteger hdouble fun hkind => ?_) (List.takeWhile_prefix _)
    refine (hboolean hkind).imp (fun h => ?_) fun h => ?_
    · exact String.toList_ofList.symm.trans (congrArg String.toList h)
    · exact String.toList_ofList.symm.trans (congrArg String.toList h)

theorem isNumeral_takeWhile (hch : ch.isDigit = true) (rest : List Char) :
    IsNumeral (ch :: rest.takeWhile Char.isDigit) := by
  refine ⟨List.cons_ne_nil _ _, fun c hc => ?_⟩
  cases List.mem_cons.mp hc with
  | inl h => exact h ▸ hch
  | inr h => exact List.mem_takeWhile_imp h

theorem finds_number (hch : ch.isDigit = true)
    (h : tokenizeNumber location ch rest = .ok found) : Finds ch rest found := by
  rw [tokenizeNumber] at h
  dsimp only at h
  have hsplit := List.takeWhile_append_dropWhile (p := Char.isDigit) (l := rest)
  split at h
  · rename_i behind hbehind
    split at h
    · cases h
    · rename_i hfraction
      obtain rfl := Except.ok.inj h
      have hnumeral : IsNumeral (behind.takeWhile Char.isDigit) :=
        ⟨hfraction, fun c hc => List.mem_takeWhile_imp hc⟩
      refine .token ⟨by decide, fun location => ?_⟩ ?_
      · refine ⟨ch :: rest.takeWhile Char.isDigit, behind.takeWhile Char.isDigit, ?_,
          isNumeral_takeWhile hch rest, hnumeral⟩
        simp only [String.toList_ofList, List.cons_append]
      · rw [hbehind] at hsplit
        refine ⟨behind.dropWhile Char.isDigit, ?_⟩
        rw [List.append_assoc, List.cons_append, List.takeWhile_append_dropWhile, hsplit]
  · obtain rfl := Except.ok.inj h
    refine .token ⟨by decide, fun location => ?_⟩ (List.takeWhile_prefix _)
    show IsNumeral (String.ofList _).toList
    rw [String.toList_ofList]
    exact isNumeral_takeWhile hch rest

theorem finds_string (h : tokenizeString location rest = .ok found) : Finds ch rest found := by
  rw [tokenizeString] at h
  split at h
  · cases h
  · rename_i hlength
    obtain rfl := Except.ok.inj h
    exact .string (Nat.lt_of_le_of_ne (List.takeWhile_prefix _).length_le hlength)

theorem singleKind_spells {kind : TokenKind} (h : singleKind ch = some kind) :
    Spells kind [ch] := by
  unfold singleKind at h
  split at h
  all_goals
    cases h
    try exact spells_of_ne (by decide) (by decide) (by decide) nofun

/-- What a character begins, whatever follows it and wherever it stands. -/
inductive Begins (ch : Char) : (SourceLocation → List Char → Result Found) → Prop
  | single {kind} (hspells : Spells kind [ch]) :
    Begins ch fun _ _ => .ok (current kind ch [])
  | comparison (withEqual without : TokenKind) (hwith : Spells withEqual [ch, '='])
    (hwithout : Spells without [ch]) :
    Begins ch fun _ rest => .ok (tokenizeComparison withEqual without ch rest)
  | notEqual : Begins ch fun location rest =>
    if rest.head? = some '=' then .ok (current .notEqual ch ['='])
    else .error (lexerError location "unexpected '!': expected '='")
  | skipped : Begins ch fun _ _ => .ok ⟨none, 0⟩
  | string : Begins ch fun location rest => tokenizeString location rest
  | number (hdigit : ch.isDigit = true) :
    Begins ch fun location rest => tokenizeNumber location ch rest
  | word : Begins ch fun _ rest => .ok (tokenizeIdentifierOrReservedWord ch rest)
  | unexpected : Begins ch fun location _ =>
    .error (lexerError location s!"unexpected character '{ch}'")

theorem tokenizeNext_begins (ch : Char) :
    ∃ f, Begins ch f ∧ ∀ location rest, tokenizeNext location ch rest = f location rest := by
  have hplain {kind : TokenKind} {lexeme : List Char} (hinteger : kind ≠ .integerLiteral)
      (hdouble : kind ≠ .doubleLiteral) (hboolean : kind ≠ .booleanLiteral)
      (hend : kind ≠ .endOfInput) : Spells kind lexeme :=
    spells_of_ne hend hinteger hdouble fun h => absurd h hboolean
  cases hsingle : singleKind ch with
  | some kind =>
    exact ⟨_, .single (singleKind_spells hsingle), fun _ _ => by
      simp only [tokenizeNext, hsingle]⟩
  | none =>
    by_cases hless : ch = '<'
    · exact ⟨_, .comparison .lessEqual .less (hplain nofun nofun nofun nofun)
        (hplain nofun nofun nofun nofun), fun _ _ => by
          simp only [tokenizeNext, hsingle, if_pos hless]⟩
    by_cases hgreater : ch = '>'
    · exact ⟨_, .comparison .greaterEqual .greater (hplain nofun nofun nofun nofun)
        (hplain nofun nofun nofun nofun), fun _ _ => by
          simp only [tokenizeNext, hsingle, if_neg hless, if_pos hgreater]⟩
    by_cases hnot : ch = '!'
    · exact ⟨_, .notEqual, fun _ _ => by
        simp only [tokenizeNext, hsingle, if_neg hless, if_neg hgreater, if_pos hnot]⟩
    by_cases hspace : ch = ' ' ∨ ch = '\r' ∨ ch = '\t' ∨ ch = '\n'
    · exact ⟨_, .skipped, fun _ _ => by
        simp only [tokenizeNext, hsingle, if_neg hless, if_neg hgreater, if_neg hnot,
          if_pos hspace]⟩
    by_cases hquote : ch = quote
    · exact ⟨_, .string, fun _ _ => by
        simp only [tokenizeNext, hsingle, if_neg hless, if_neg hgreater, if_neg hnot,
          if_neg hspace, if_pos hquote]⟩
    by_cases hdigit : ch.isDigit = true
    · exact ⟨_, .number hdigit, fun _ _ => by
        simp only [tokenizeNext, hsingle, if_neg hless, if_neg hgreater, if_neg hnot,
          if_neg hspace, if_neg hquote, if_pos hdigit]⟩
    by_cases hletter : isAsciiLetter ch = true ∨ ch = '_'
    · exact ⟨_, .word, fun _ _ => by
        simp only [tokenizeNext, hsingle, if_neg hless, if_neg hgreater, if_neg hnot,
          if_neg hspace, if_neg hquote, if_neg hdigit, if_pos hletter]⟩
    · exact ⟨_, .unexpected, fun _ _ => by
        simp only [tokenizeNext, hsingle, if_neg hless, if_neg hgreater, if_neg hnot,
          if_neg hspace, if_neg hquote, if_neg hdigit, if_neg hletter]⟩

theorem finds_next (h : tokenizeNext location ch rest = .ok found) : Finds ch rest found := by
  obtain ⟨f, hbegins, hf⟩ := tokenizeNext_begins ch
  rw [hf] at h
  cases hbegins with
  | single hspells => exact Except.ok.inj h ▸ .token hspells List.nil_prefix
  | comparison _ _ hwith hwithout => exact Except.ok.inj h ▸ finds_comparison hwith hwithout
  | notEqual =>
    dsimp only at h
    split at h
    · rename_i hhead
      obtain rfl := Except.ok.inj h
      cases rest with
      | nil => cases hhead
      | cons c rest =>
        obtain rfl := Option.some.inj hhead
        exact .token (spells_of_ne nofun nofun nofun nofun) ⟨rest, rfl⟩
    · cases h
  | skipped => exact Except.ok.inj h ▸ .skipped
  | string => exact finds_string h
  | number hdigit => exact finds_number hdigit h
  | word => exact Except.ok.inj h ▸ finds_word
  | unexpected => cases h

theorem Finds.further_le (h : Finds ch rest found) : found.further ≤ rest.length := by
  cases h with
  | skipped => exact Nat.zero_le _
  | token _ hfurther => exact hfurther.length_le
  | string hlength => exact hlength

/-- The tokens of a text are lexed, and the end of the input is behind them. -/
theorem tokenizeFrom_lexed {skip : Nat} {source : List Char} {tokens : List Token}
    (h : tokenizeFrom skip location source = .ok tokens) :
    ∃ inside last, tokens = inside ++ [last] ∧ last.kind = .endOfInput ∧
      ∀ token ∈ inside, token.kind ≠ .endOfInput ∧ token.IsLexed := by
  induction source generalizing skip location tokens with
  | nil =>
    rw [tokenizeFrom] at h
    obtain rfl := Except.ok.inj h
    exact ⟨[], _, rfl, rfl, nofun⟩
  | cons ch rest ih =>
    cases skip with
    | succ skip =>
      rw [tokenizeFrom] at h
      exact ih h
    | zero =>
      rw [tokenizeFrom] at h
      obtain ⟨found, hfound, h⟩ := bind_eq_ok.mp h
      obtain ⟨tokens', htokens, h⟩ := bind_eq_ok.mp h
      obtain rfl := Except.ok.inj h
      obtain ⟨inside, last, rfl, hlast, hinside⟩ := ih htokens
      refine ⟨found.tokens location ++ inside, last, (List.append_assoc ..).symm, hlast, ?_⟩
      intro token htoken
      cases List.mem_append.mp htoken with
      | inr hmem => exact hinside token hmem
      | inl hmem =>
        cases finds_next hfound with
        | skipped => cases hmem
        | token hspells =>
          obtain rfl := List.mem_singleton.mp hmem
          exact ⟨hspells.1, hspells.2 location⟩
        | string =>
          obtain rfl := List.mem_singleton.mp hmem
          exact ⟨nofun, trivial⟩

end Tokens

/-! ## Cuts -/

section Cuts

variable {location : SourceLocation} {ch : Char} {rest more : List Char} {p : Char → Bool}

/-- A line ends before the cut or begins behind it. -/
def CutsLine (rest more : List Char) : Prop := '\n' ∈ rest ∨ more.head? = some '\n'

/-- A run of characters that are no line breaks does not go over the cut. -/
theorem CutsLine.takeWhile (h : CutsLine rest more) (hp : p '\n' = false) :
    (rest ++ more).takeWhile p = rest.takeWhile p ∧
      (rest ++ more).dropWhile p = rest.dropWhile p ++ more := by
  induction rest with
  | nil =>
    obtain h | h := h
    · cases h
    · cases more with
      | nil => cases h
      | cons c more =>
        obtain rfl := Option.some.inj h
        simp [hp]
  | cons c rest ih =>
    cases hc : p c with
    | false => simp [hc]
    | true =>
      have hrest : CutsLine rest more := by
        refine h.imp_left fun hmem => ?_
        cases List.mem_cons.mp hmem with
        | inl heq => rw [← heq, hp] at hc; cases hc
        | inr hmem => exact hmem
      obtain ⟨htake, hdrop⟩ := ih hrest
      rw [List.cons_append, List.takeWhile_cons_of_pos hc, List.takeWhile_cons_of_pos hc,
        List.dropWhile_cons_of_pos hc, List.dropWhile_cons_of_pos hc, htake, hdrop]
      exact ⟨rfl, rfl⟩

theorem CutsLine.dropWhile (h : CutsLine rest more) (hp : p '\n' = false) :
    CutsLine (rest.dropWhile p) more := by
  refine h.imp_left fun hmem => ?_
  rw [← List.takeWhile_append_dropWhile (p := p) (l := rest)] at hmem
  cases List.mem_append.mp hmem with
  | inl hmem =>
    have htrue := List.mem_takeWhile_imp hmem
    rw [hp] at htrue
    cases htrue
  | inr hmem => exact hmem

theorem CutsLine.head (h : CutsLine rest more) :
    (rest ++ more).head? = some '=' ↔ rest.head? = some '=' := by
  cases rest with
  | nil =>
    obtain h | h := h
    · cases h
    · rw [List.nil_append, h]
      simp
  | cons c rest => exact Iff.rfl

theorem tokenizeNumber_cut (h : CutsLine rest more) :
    tokenizeNumber location ch (rest ++ more) = tokenizeNumber location ch rest := by
  obtain ⟨htake, hdrop⟩ := h.takeWhile (p := Char.isDigit) rfl
  have hbehind := h.dropWhile (p := Char.isDigit) rfl
  rw [tokenizeNumber, tokenizeNumber, htake, hdrop]
  cases hrest : rest.dropWhile Char.isDigit with
  | nil =>
    rw [hrest] at hbehind
    obtain h | h := hbehind
    · cases h
    · cases more with
      | nil => cases h
      | cons c more =>
        obtain rfl := Option.some.inj h
        rfl
  | cons c behind =>
    by_cases hpoint : c = '.'
    · subst hpoint
      rw [hrest] at hbehind
      have hcut : CutsLine behind more := by
        refine hbehind.imp_left fun hmem => ?_
        cases hmem with
        | tail _ hmem => exact hmem
      simp only [List.cons_append, (hcut.takeWhile (p := Char.isDigit) rfl).1]
    · rw [List.cons_append]
      split
      · rename_i heq
        exact absurd (List.cons.inj heq).1 hpoint
      · split
        · rename_i heq
          exact absurd (List.cons.inj heq).1 hpoint
        · rfl

/-- A string that is closed before the cut is the same without what follows. -/
theorem tokenizeString_cut (more : List Char) :
    tokenizeString location (rest ++ more) = tokenizeString location rest ∨
      ∃ message, tokenizeString location rest = .error (.IncompleteInput message) := by
  rw [tokenizeString, tokenizeString]
  by_cases hlength : (rest.takeWhile (· ≠ quote)).length = rest.length
  · exact .inr ⟨_, if_pos hlength⟩
  · have htake : (rest ++ more).takeWhile (· ≠ quote) = rest.takeWhile (· ≠ quote) := by
      rw [List.takeWhile_append, if_neg hlength]
    have hle := (List.takeWhile_prefix (· ≠ quote) (l := rest)).length_le
    rw [htake, if_neg hlength, if_neg]
    · exact .inl rfl
    · rw [List.length_append]
      omega

/-- What is found at a character does not depend on what follows the cut, except that
a string may go over it. -/
theorem tokenizeNext_cut (location : SourceLocation) (h : ch = '\n' ∨ CutsLine rest more) :
    tokenizeNext location ch (rest ++ more) = tokenizeNext location ch rest ∨
      ∃ message, tokenizeNext location ch rest = .error (.IncompleteInput message) := by
  obtain rfl | h := h
  · exact .inl rfl
  · obtain ⟨f, hbegins, hf⟩ := tokenizeNext_begins ch
    rw [hf, hf]
    cases hbegins with
    | comparison => exact .inl (by simp only [tokenizeComparison, h.head])
    | notEqual => exact .inl (by simp only [h.head])
    | string => exact tokenizeString_cut more
    | number => exact .inl (tokenizeNumber_cut h)
    | word =>
      refine .inl (congrArg Except.ok ?_)
      rw [tokenizeIdentifierOrReservedWord, (h.takeWhile rfl).1, tokenizeIdentifierOrReservedWord]
    | _ => exact .inl rfl

end Cuts

/-! ## Texts in two parts -/

section Parts

variable {location : SourceLocation} {ch : Char} {a b : List Char} {skip : Nat}

/-- The location behind some characters. -/
def behind (location : SourceLocation) (source : List Char) : SourceLocation :=
  source.foldl SourceLocation.advance location

theorem behind_concat (location : SourceLocation) (source : List Char) :
    behind location (source ++ ['\n']) = ⟨(behind location source).line + 1, 1⟩ := by
  rw [behind, List.foldl_append]
  rfl

/-- A text is empty, ends with a line break or has one behind it. -/
def EndsLine (a b : List Char) : Prop :=
  a = [] ∨ (∃ line, a = line ++ ['\n']) ∨ b.head? = some '\n'

theorem EndsLine.tail (h : EndsLine (ch :: a) b) : EndsLine a b := by
  obtain h | ⟨line, h⟩ | h := h
  · cases h
  · cases line with
    | nil => exact .inl (List.cons.inj h).2
    | cons c line => exact .inr (.inl ⟨line, (List.cons.inj h).2⟩)
  · exact .inr (.inr h)

theorem EndsLine.cuts (h : EndsLine (ch :: a) b) : ch = '\n' ∨ CutsLine a b := by
  obtain h | ⟨line, h⟩ | h := h
  · cases h
  · cases line with
    | nil => exact .inl (List.cons.inj h).1
    | cons c line =>
      obtain ⟨-, rfl⟩ := List.cons.inj h
      exact .inr (.inl (by simp))
  · exact .inr (.inr h)

/-- A text that is cut at a line break: the first part has its tokens, or it ends
inside a string, or it has the error of the whole. -/
theorem tokenizeFrom_append (location : SourceLocation) (h : EndsLine a b) (hskip : skip ≤ a.length) :
    (∃ tokens, tokenizeFrom skip location a =
        .ok (tokens ++ [⟨.endOfInput, "", behind location a⟩]) ∧
      tokenizeFrom skip location (a ++ b) =
        (tokenizeFrom 0 (behind location a) b).map (tokens ++ ·)) ∨
    (∃ message, tokenizeFrom skip location a = .error (.IncompleteInput message)) ∨
    ∃ status, tokenizeFrom skip location a = .error status ∧
      tokenizeFrom skip location (a ++ b) = .error status := by
  induction a generalizing skip location with
  | nil =>
    obtain rfl := Nat.le_zero.mp hskip
    refine .inl ⟨[], rfl, ?_⟩
    rw [List.nil_append]
    show _ = (tokenizeFrom 0 location b).map (fun tokens => tokens)
    cases tokenizeFrom 0 location b <;> rfl
  | cons ch a ih =>
    cases skip with
    | succ skip => exact ih _ h.tail (Nat.le_of_succ_le_succ hskip)
    | zero =>
      rw [List.cons_append, tokenizeFrom, tokenizeFrom]
      cases hfound : tokenizeNext location ch a with
      | error status =>
        cases tokenizeNext_cut location h.cuts with
        | inl heq => exact .inr (.inr ⟨status, rfl, by rw [heq, hfound]; rfl⟩)
        | inr hincomplete =>
          obtain ⟨message, hmessage⟩ := hincomplete
          rw [hfound] at hmessage
          exact .inr (.inl ⟨message, by rw [Except.error.inj hmessage]; rfl⟩)
      | ok found =>
        have heq : tokenizeNext location ch (a ++ b) = .ok found := by
          cases tokenizeNext_cut location h.cuts with
          | inl heq => exact heq.trans hfound
          | inr hincomplete =>
            obtain ⟨message, hmessage⟩ := hincomplete
            rw [hfound] at hmessage
            cases hmessage
        rw [heq, ok_bind, ok_bind]
        obtain ⟨tokens, ha, hab⟩ | ⟨message, ha⟩ | ⟨status, ha, hab⟩ :=
          ih (location.advance ch) h.tail (finds_next hfound).further_le
        · refine .inl ⟨found.tokens location ++ tokens, ?_, ?_⟩
          · rw [ha, ok_bind, List.append_assoc]
            rfl
          · rw [hab]
            show _ = (tokenizeFrom 0 (behind (location.advance ch) a) b).map _
            cases tokenizeFrom 0 (behind (location.advance ch) a) b with
            | error status => rfl
            | ok rest => exact congrArg Except.ok (List.append_assoc ..).symm
        · exact .inr (.inl ⟨message, by rw [ha]; rfl⟩)
        · exact .inr (.inr ⟨status, by rw [ha]; rfl, by rw [hab]; rfl⟩)

end Parts

/-! ## Texts further down -/

section Shifts

variable {location location' : SourceLocation} {ch : Char} {rest : List Char} {found : Found}

/-- What is found does not depend on where it is found. -/
theorem tokenizeNext_location (location' : SourceLocation) :
    tokenizeNext location ch rest = .ok found → tokenizeNext location' ch rest = .ok found := by
  have hnumber : tokenizeNumber location ch rest = .ok found →
      tokenizeNumber location' ch rest = .ok found := by
    rw [tokenizeNumber, tokenizeNumber]
    split
    · dsimp only
      split
      · nofun
      · exact id
    · exact id
  have hstring : tokenizeString location rest = .ok found →
      tokenizeString location' rest = .ok found := by
    rw [tokenizeString, tokenizeString]
    split
    · nofun
    · exact id
  obtain ⟨f, hbegins, hf⟩ := tokenizeNext_begins ch
  rw [hf, hf]
  cases hbegins with
  | notEqual =>
    dsimp only
    split
    · exact id
    · nofun
  | string => exact hstring
  | number => exact hnumber
  | unexpected => nofun
  | _ => exact id

/-- A location some lines further down. -/
def down (lines : Nat) (location : SourceLocation) : SourceLocation :=
  ⟨location.line + lines, location.column⟩

/-- The location that is some lines further up, where there is one. -/
def up (lines : Nat) (location : SourceLocation) : SourceLocation :=
  ⟨location.line - lines, location.column⟩

theorem up_down (lines : Nat) (tokens : List Token) :
    (tokens.map (Token.relocate (down lines))).map (Token.relocate (up lines)) = tokens := by
  rw [List.map_map]
  refine List.map_id'' (fun token => ?_) tokens
  obtain ⟨kind, lexeme, line, column⟩ := token
  simp [Token.relocate, up, down]

theorem down_advance (lines : Nat) (location : SourceLocation) (ch : Char) :
    (down lines location).advance ch = down lines (location.advance ch) := by
  rw [SourceLocation.advance, SourceLocation.advance]
  split
  · rw [down, down, Nat.add_right_comm]
  · rfl

/-- A text has the same tokens in a place further down, with their locations there. -/
theorem tokenizeFrom_down {lines skip : Nat} {source : List Char} {tokens : List Token}
    (h : tokenizeFrom skip (down lines location) source = .ok tokens) :
    ∃ tokens', tokenizeFrom skip location source = .ok tokens' ∧
      tokens = tokens'.map (Token.relocate (down lines)) := by
  induction source generalizing skip location tokens with
  | nil =>
    rw [tokenizeFrom] at h
    obtain rfl := Except.ok.inj h
    exact ⟨_, by rw [tokenizeFrom], rfl⟩
  | cons ch rest ih =>
    cases skip with
    | succ skip =>
      rw [tokenizeFrom, down_advance] at h
      rw [tokenizeFrom]
      exact ih h
    | zero =>
      rw [tokenizeFrom, down_advance] at h
      obtain ⟨found, hfound, h⟩ := bind_eq_ok.mp h
      obtain ⟨tokens, htokens, h⟩ := bind_eq_ok.mp h
      obtain rfl := Except.ok.inj h
      obtain ⟨tokens', htokens', rfl⟩ := ih htokens
      refine ⟨found.tokens location ++ tokens', ?_, ?_⟩
      · rw [tokenizeFrom, tokenizeNext_location location hfound, ok_bind, htokens', ok_bind]
        rfl
      · rw [List.map_append, Found.tokens, Found.tokens]
        cases found.token <;> rfl

end Shifts

end Lexer

end DanDB.Sql
