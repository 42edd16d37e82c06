import DanDB.Sql.Lexer

/-!
# How tokens are spelled

What a text of tokens looks like, without a word on how it is read: the tokens follow
each other with nothing but white space between them, each is as long as it can be,
and its location is counted off the text in front of it.  The lexer finds exactly the
tokens that a text is spelled with, and fails where no token stands.
-/

namespace DanDB.Sql

open DanDB.Core

namespace Lexer

/-- The line and the column behind some text, counted off the text. -/
def locationOf (before : List Char) : SourceLocation :=
  ⟨before.count '\n' + 1, (before.reverse.takeWhile (· ≠ '\n')).length + 1⟩

def IsSpace (ch : Char) : Prop := ch = ' ' ∨ ch = '\r' ∨ ch = '\t' ∨ ch = '\n'

/-- The token of a word: a keyword, whatever the case of its letters, or a name. -/
inductive WordKind (word : List Char) : TokenKind → Prop
  | keyword {name : String} {kind : TokenKind} (hmem : (name, kind) ∈ reservedWordKinds)
    (heq : upper word = upper name.toList) : WordKind word kind
  | identifier (h : ∀ entry ∈ reservedWordKinds, upper word ≠ upper entry.1.toList) :
    WordKind word .identifier

/-- `Stands kind lexeme spelling rest`: a token stands where the text goes on with its
spelling and then with the rest. -/
inductive Stands : TokenKind → List Char → List Char → List Char → Prop
  | single {ch kind rest} (h : singleKind ch = some kind) : Stands kind [ch] [ch] rest
  | less {rest} (h : rest.head? ≠ some '=') : Stands .less ['<'] ['<'] rest
  | lessEqual {rest} : Stands .lessEqual ['<', '='] ['<', '='] rest
  | greater {rest} (h : rest.head? ≠ some '=') : Stands .greater ['>'] ['>'] rest
  | greaterEqual {rest} : Stands .greaterEqual ['>', '='] ['>', '='] rest
  | notEqual {rest} : Stands .notEqual ['!', '='] ['!', '='] rest
  | string {lexeme rest} (h : quote ∉ lexeme) :
    Stands .stringLiteral lexeme (quote :: lexeme ++ [quote]) rest
  | integer {digits rest} (hnumeral : IsNumeral digits)
    (hend : ∀ ch ∈ rest.head?, ch.isDigit = false ∧ ch ≠ '.') :
    Stands .integerLiteral digits digits rest
  | double {integral fraction rest} (hintegral : IsNumeral integral)
    (hfraction : IsNumeral fraction) (hend : ∀ ch ∈ rest.head?, ch.isDigit = false) :
    Stands .doubleLiteral (integral ++ '.' :: fraction) (integral ++ '.' :: fraction) rest
  | word {ch word kind rest} (hfirst : isAsciiLetter ch = true ∨ ch = '_')
    (hword : ∀ c ∈ word, isWordCharacter c = true) (hkind : WordKind (ch :: word) kind)
    (hend : ∀ c ∈ rest.head?, isWordCharacter c = false) :
    Stands kind (ch :: word) (ch :: word) rest

/-- A character that no token and no white space begins with. -/
def Unknown (ch : Char) : Prop :=
  singleKind ch = none ∧ ch ∉ ['<', '>', '!', quote, '_'] ∧ ¬IsSpace ch ∧
    ch.isDigit = false ∧ isAsciiLetter ch = false

/-- What is wrong with a text where no token can be completed, and the error for it. -/
inductive Fails (location : SourceLocation) : List Char → Status → Prop
  | unknown {ch rest} (h : Unknown ch) :
    Fails location (ch :: rest) (lexerError location s!"unexpected character '{ch}'")
  | exclamation {rest} (h : rest.head? ≠ some '=') :
    Fails location ('!' :: rest) (lexerError location "unexpected '!': expected '='")
  | point {integral rest} (hintegral : IsNumeral integral)
    (hend : ∀ ch ∈ rest.head?, ch.isDigit = false) :
    Fails location (integral ++ '.' :: rest) (lexerError location
      "invalid double literal: expected a digit after decimal point")
  | string {rest} (h : quote ∉ rest) :
    Fails location (quote :: rest) (incompleteInputError location "unterminated string literal")

/-- The text in front of the rest is made up of the tokens and of white space. -/
inductive Spelled : List Char → List Char → List Token → Prop
  | start {rest} : Spelled [] rest []
  | space {before ch rest tokens} (h : Spelled before (ch :: rest) tokens) (hch : IsSpace ch) :
    Spelled (before ++ [ch]) rest tokens
  | token {before spelling rest tokens kind lexeme}
    (h : Spelled before (spelling ++ rest) tokens) (hstands : Stands kind lexeme spelling rest) :
    Spelled (before ++ spelling) rest
      (tokens ++ [⟨kind, String.ofList lexeme, locationOf before⟩])

/-! ## Locations -/

theorem locationOf_concat (before : List Char) (ch : Char) :
    locationOf (before ++ [ch]) = (locationOf before).advance ch := by
  rw [locationOf, SourceLocation.advance, List.count_append, List.reverse_append]
  by_cases h : ch = '\n'
  · subst h
    rfl
  · rw [if_neg h]
    simp [locationOf, h]

theorem locationOf_append (before text : List Char) :
    locationOf (before ++ text) = behind (locationOf before) text := by
  induction text generalizing before with
  | nil => rw [List.append_nil]; rfl
  | cons ch text ih =>
    rw [List.append_cons, ih, locationOf_concat]
    rfl

/-! ## Characters -/

section Characters

variable {location : SourceLocation} {ch : Char} {rest : List Char}

theorem isDigit_of_letter (h : isAsciiLetter ch = true) : ch.isDigit = false := by
  simp only [isAsciiLetter, Bool.or_eq_true, Bool.and_eq_true, decide_eq_true_eq, Char.le_def,
    UInt32.le_iff_toNat_le] at h
  cases hdigit : ch.isDigit with
  | false => rfl
  | true =>
    simp only [Char.isDigit, Bool.and_eq_true, decide_eq_true_eq, ge_iff_le,
      UInt32.le_iff_toNat_le] at hdigit
    have hnine : ch.val.toNat ≤ 57 := hdigit.2
    have hletter : 97 ≤ ch.val.toNat ∨ 65 ≤ ch.val.toNat := h.imp And.left And.left
    omega

/-- A character of a word is none of the other characters that a token begins with. -/
theorem isWordCharacter_plain (h : isWordCharacter ch = true) :
    singleKind ch = none ∧ ch ≠ '<' ∧ ch ≠ '>' ∧ ch ≠ '!' ∧ ¬IsSpace ch ∧ ch ≠ quote := by
  have hne {c : Char} (hc : isWordCharacter c = false) : ch ≠ c := by
    rintro rfl
    rw [h] at hc
    cases hc
  refine ⟨?_, hne (by decide), hne (by decide), hne (by decide), ?_, hne (by decide)⟩
  · cases hsingle : singleKind ch with
    | none => rfl
    | some kind =>
      unfold singleKind at hsingle
      split at hsingle
      all_goals first
        | cases hsingle; done
        | exact absurd rfl (hne (by decide))
  · rintro (rfl | rfl | rfl | rfl) <;> cases h

theorem tokenizeNext_space (h : IsSpace ch) : tokenizeNext location ch rest = .ok ⟨none, 0⟩ := by
  obtain rfl | rfl | rfl | rfl := h <;> rfl

theorem tokenizeNext_digit (h : ch.isDigit = true) :
    tokenizeNext location ch rest = tokenizeNumber location ch rest := by
  have hword : isWordCharacter ch = true := by rw [isWordCharacter, h]; simp
  obtain ⟨hsingle, hless, hgreater, hnot, hspace, hquote⟩ := isWordCharacter_plain hword
  rw [IsSpace] at hspace
  simp only [tokenizeNext, hsingle, if_neg hless, if_neg hgreater, if_neg hnot, if_neg hspace,
    if_neg hquote, if_pos h]

theorem tokenizeNext_word (h : isAsciiLetter ch = true ∨ ch = '_') :
    tokenizeNext location ch rest = .ok (tokenizeIdentifierOrReservedWord ch rest) := by
  have hword : isWordCharacter ch = true := by
    rw [isWordCharacter]
    cases h with
    | inl h => rw [h]; rfl
    | inr h => rw [h]; rfl
  have hdigit : ch.isDigit = false := by
    cases h with
    | inl h => exact isDigit_of_letter h
    | inr h => rw [h]; rfl
  obtain ⟨hsingle, hless, hgreater, hnot, hspace, hquote⟩ := isWordCharacter_plain hword
  rw [IsSpace] at hspace
  simp only [tokenizeNext, hsingle, if_neg hless, if_neg hgreater, if_neg hnot, if_neg hspace,
    if_neg hquote, hdigit, Bool.false_eq_true, if_false, if_pos h]

theorem tokenizeNext_unknown (h : Unknown ch) : tokenizeNext location ch rest =
    .error (lexerError location s!"unexpected character '{ch}'") := by
  obtain ⟨hsingle, hplain, hspace, hdigit, hletter⟩ := h
  simp only [List.mem_cons, List.not_mem_nil, or_false, not_or] at hplain
  obtain ⟨hless, hgreater, hnot, hquote, hunderscore⟩ := hplain
  rw [IsSpace] at hspace
  simp only [tokenizeNext, hsingle, if_neg hless, if_neg hgreater, if_neg hnot, if_neg hspace,
    if_neg hquote, hdigit, hletter, Bool.false_eq_true, false_or, if_false, if_neg hunderscore]

end Characters

/-! ## One token -/

section Token

variable {location : SourceLocation} {ch : Char} {word rest : List Char} {kind : TokenKind}
  {lexeme : List Char}

theorem takeWhile_run (p : Char → Bool) (run rest : List Char) (hrun : ∀ c ∈ run, p c = true)
    (hend : ∀ c ∈ rest.head?, p c = false) :
    (run ++ rest).takeWhile p = run ∧ (run ++ rest).dropWhile p = rest := by
  rw [List.takeWhile_append_of_pos hrun, List.dropWhile_append_of_pos hrun]
  cases rest with
  | nil => simp
  | cons c rest =>
    have hc := hend c rfl
    simp [hc]

theorem reservedWordKinds_upper {name : String} (h : (name, kind) ∈ reservedWordKinds) :
    reservedWordKinds.lookup name = some kind ∧ upper name.toList = name.toList := by
  have hall : ∀ entry ∈ reservedWordKinds, reservedWordKinds.lookup entry.1 = some entry.2 ∧
      upper entry.1.toList = entry.1.toList := by
    decide
  exact hall _ h

theorem current_wordKind (h : WordKind (ch :: word) kind)
    (hword : ∀ c ∈ word, isWordCharacter c = true)
    (hend : ∀ c ∈ rest.head?, isWordCharacter c = false) :
    tokenizeIdentifierOrReservedWord ch (word ++ rest) = current kind ch word := by
  rw [tokenizeIdentifierOrReservedWord, (takeWhile_run _ _ _ hword hend).1]
  cases h with
  | keyword hmem heq =>
    obtain ⟨hlookup, hupper⟩ := reservedWordKinds_upper hmem
    rw [heq, hupper, String.ofList_toList, hlookup]
  | identifier h =>
    have hnone : reservedWordKinds.lookup (String.ofList (upper (ch :: word))) = none := by
      refine List.lookup_eq_none_iff.mpr fun entry hentry => ?_
      rw [bne_iff_ne]
      intro heq
      refine h entry hentry ?_
      rw [(reservedWordKinds_upper (show (entry.1, entry.2) ∈ _ from hentry)).2, ← heq,
        String.toList_ofList]
    rw [hnone]

theorem wordKind_of_current (word : List Char) :
    ∃ kind, WordKind (ch :: word) kind := by
  cases hlookup : reservedWordKinds.lookup (String.ofList (upper (ch :: word))) with
  | some kind =>
    obtain ⟨before, after, hsplit, -⟩ := List.lookup_eq_some_iff.mp hlookup
    have hmem : (String.ofList (upper (ch :: word)), kind) ∈ reservedWordKinds :=
      hsplit ▸ by simp
    refine ⟨kind, .keyword hmem ?_⟩
    rw [(reservedWordKinds_upper hmem).2, String.toList_ofList]
  | none =>
    refine ⟨.identifier, .identifier fun entry hentry heq => ?_⟩
    have hne := List.lookup_eq_none_iff.mp hlookup entry hentry
    rw [bne_iff_ne] at hne
    refine hne ?_
    rw [heq, (reservedWordKinds_upper (show (entry.1, entry.2) ∈ _ from hentry)).2,
      String.ofList_toList]

/-- The lexer finds the token that stands at a place. -/
theorem Stands.tokenizeNext {further : List Char}
    (h : Stands kind lexeme (ch :: further) rest) :
    tokenizeNext location ch (further ++ rest) = .ok ⟨some (kind, lexeme), further.length⟩ := by
  generalize hspelling : ch :: further = spelling at h
  cases h with
  | single h =>
    obtain ⟨rfl, rfl⟩ := List.cons.inj hspelling
    simp only [Lexer.tokenizeNext, h]
    rfl
  | less h =>
    obtain ⟨rfl, rfl⟩ := List.cons.inj hspelling
    show Except.ok (tokenizeComparison .lessEqual .less '<' rest) = _
    rw [tokenizeComparison, if_neg h]
    rfl
  | greater h =>
    obtain ⟨rfl, rfl⟩ := List.cons.inj hspelling
    show Except.ok (tokenizeComparison .greaterEqual .greater '>' rest) = _
    rw [tokenizeComparison, if_neg h]
    rfl
  | lessEqual =>
    obtain ⟨rfl, rfl⟩ := List.cons.inj hspelling
    rfl
  | greaterEqual =>
    obtain ⟨rfl, rfl⟩ := List.cons.inj hspelling
    rfl
  | notEqual =>
    obtain ⟨rfl, rfl⟩ := List.cons.inj hspelling
    rfl
  | string h =>
    obtain ⟨rfl, rfl⟩ := List.cons.inj hspelling
    show tokenizeString location (lexeme ++ [quote] ++ rest) = _
    have hrun := takeWhile_run (decide <| · ≠ quote) lexeme ([quote] ++ rest) (fun c hc => decide_eq_true fun heq => h (heq ▸ hc))
      fun c hc => by
        obtain rfl := Option.some.inj hc
        exact decide_eq_false (not_not.mpr rfl)
    rw [tokenizeString, List.append_assoc, hrun.1, if_neg]
    · simp
    · simp
  | integer hnumeral hend =>
    obtain rfl := hspelling
    have hdigits := takeWhile_run Char.isDigit further rest
      (fun c hc => hnumeral.2 c (List.mem_cons_of_mem _ hc)) fun c hc => (hend c hc).1
    rw [tokenizeNext_digit (hnumeral.2 ch (List.mem_cons_self ..)), tokenizeNumber, hdigits.1,
      hdigits.2]
    split
    · rename_i behind
      exact absurd rfl (hend '.' rfl).2
    · rfl
  | @double integral fraction _ hintegral hfraction hend =>
    obtain ⟨hne, hall⟩ := hintegral
    cases integral with
    | nil => exact absurd rfl hne
    | cons c integral =>
      obtain ⟨rfl, hfurther⟩ : ch = c ∧ further = integral ++ '.' :: fraction :=
        List.cons.inj hspelling
      subst hfurther
      have hdigits := takeWhile_run Char.isDigit integral ('.' :: fraction ++ rest)
        (fun c hc => hall c (List.mem_cons_of_mem _ hc))
        fun c hc => by
          obtain rfl := Option.some.inj hc
          rfl
      have hbehind := takeWhile_run Char.isDigit fraction rest hfraction.2 hend
      rw [tokenizeNext_digit (hall ch (List.mem_cons_self ..)), tokenizeNumber,
        List.append_assoc, hdigits.1, hdigits.2]
      simp only [List.cons_append, hbehind.1, if_neg hfraction.1]
      rfl
  | word hfirst hword hkind hend =>
    obtain ⟨rfl, rfl⟩ := List.cons.inj hspelling
    rw [tokenizeNext_word hfirst, current_wordKind hkind hword hend]
    rfl

end Token

/-! ## Where no token stands -/

section Failures

variable {location : SourceLocation} {ch : Char} {rest : List Char} {status : Status}

theorem head_dropWhile (p : Char → Bool) (rest : List Char) :
    ∀ c ∈ (rest.dropWhile p).head?, p c = false := by
  intro c hc
  have h := List.head?_dropWhile_not p rest
  rw [Option.mem_def.mp hc] at h
  exact h

/-- Where the lexer fails it says what is wrong. -/
theorem Fails.tokenizeNext (h : Fails location (ch :: rest) status) :
    tokenizeNext location ch rest = .error status := by
  generalize htext : ch :: rest = text at h
  cases h with
  | unknown h =>
    obtain ⟨rfl, rfl⟩ := List.cons.inj htext
    exact tokenizeNext_unknown h
  | exclamation h =>
    obtain ⟨rfl, rfl⟩ := List.cons.inj htext
    exact if_neg h
  | @point integral behind hintegral hend =>
    obtain ⟨hne, hall⟩ := hintegral
    cases integral with
    | nil => exact absurd rfl hne
    | cons c integral =>
      obtain ⟨rfl, hrest⟩ : ch = c ∧ rest = integral ++ '.' :: behind := List.cons.inj htext
      subst hrest
      have hdigits := takeWhile_run Char.isDigit integral ('.' :: behind)
        (fun c hc => hall c (List.mem_cons_of_mem _ hc)) fun c hc => by
          obtain rfl := Option.some.inj hc
          rfl
      have hbehind := takeWhile_run Char.isDigit [] behind nofun hend
      rw [List.nil_append] at hbehind
      rw [tokenizeNext_digit (hall ch (List.mem_cons_self ..)), tokenizeNumber, hdigits.1,
        hdigits.2]
      simp only [hbehind.1, if_true]
  | string h =>
    obtain ⟨rfl, rfl⟩ := List.cons.inj htext
    show tokenizeString location rest = _
    have hrun : rest.takeWhile (decide <| · ≠ quote) = rest :=
      List.takeWhile_eq_self_iff.mpr fun c hc => decide_eq_true fun heq => h (heq ▸ hc)
    rw [tokenizeString, hrun, if_pos rfl]

/-- A text that is not at its end goes on with white space, with a token, or with
something that is wrong. -/
theorem goes_on (location : SourceLocation) (ch : Char) (rest : List Char) :
    IsSpace ch ∨
    (∃ kind lexeme further behind, rest = further ++ behind ∧
      Stands kind lexeme (ch :: further) behind) ∨
    ∃ status, Fails location (ch :: rest) status := by
  have hbehind (h : rest.head? = some '=') : ∃ behind, rest = '=' :: behind := by
    cases rest with
    | nil => cases h
    | cons c behind => exact ⟨behind, by rw [Option.some.inj h]⟩
  have hcomparison {shorter longer : TokenKind}
      (hlonger : ∀ behind, Stands longer [ch, '='] [ch, '='] behind)
      (hshorter : rest.head? ≠ some '=' → Stands shorter [ch] [ch] rest) :
      ∃ kind lexeme further behind, rest = further ++ behind ∧
        Stands kind lexeme (ch :: further) behind := by
    by_cases hequal : rest.head? = some '='
    · obtain ⟨behind, rfl⟩ := hbehind hequal
      exact ⟨longer, [ch, '='], ['='], behind, rfl, hlonger behind⟩
    · exact ⟨shorter, [ch], [], rest, rfl, hshorter hequal⟩
  by_cases hspace : IsSpace ch
  · exact .inl hspace
  · refine .inr ?_
    cases hsingle : singleKind ch with
    | some kind => exact .inl ⟨kind, [ch], [], rest, rfl, .single hsingle⟩
    | none =>
      by_cases hless : ch = '<'
      · subst hless
        exact .inl (hcomparison (fun _ => .lessEqual) .less)
      by_cases hgreater : ch = '>'
      · subst hgreater
        exact .inl (hcomparison (fun _ => .greaterEqual) .greater)
      by_cases hnot : ch = '!'
      · subst hnot
        by_cases hequal : rest.head? = some '='
        · obtain ⟨behind, rfl⟩ := hbehind hequal
          exact .inl ⟨.notEqual, ['!', '='], ['='], behind, rfl, .notEqual⟩
        · exact .inr ⟨_, .exclamation hequal⟩
      by_cases hquote : ch = quote
      · subst hquote
        by_cases hclosed : quote ∈ rest
        · obtain ⟨lexeme, behind, rfl, hlexeme⟩ := List.eq_append_cons_of_mem hclosed
          exact .inl ⟨.stringLiteral, lexeme, lexeme ++ [quote], behind, by simp,
            .string hlexeme⟩
        · exact .inr ⟨_, .string hclosed⟩
      cases hdigit : ch.isDigit with
      | true =>
        have hnumeral := isNumeral_takeWhile hdigit rest
        have hsplit := List.takeWhile_append_dropWhile (p := Char.isDigit) (l := rest)
        have hend := head_dropWhile Char.isDigit rest
        generalize rest.takeWhile Char.isDigit = integral at hnumeral hsplit
        generalize rest.dropWhile Char.isDigit = behind at hsplit hend
        subst hsplit
        by_cases hpoint : behind.head? = some '.'
        · obtain ⟨behind, rfl⟩ : ∃ rest, behind = '.' :: rest := by
            cases behind with
            | nil => cases hpoint
            | cons c rest => exact ⟨rest, by rw [Option.some.inj hpoint]⟩
          have hfraction := List.takeWhile_append_dropWhile (p := Char.isDigit) (l := behind)
          have hend' := head_dropWhile Char.isDigit behind
          by_cases hnone : behind.takeWhile Char.isDigit = []
          · rw [hnone, List.nil_append] at hfraction
            rw [hfraction] at hend'
            exact .inr ⟨_, .point hnumeral hend'⟩
          · refine .inl ⟨.doubleLiteral, _, integral ++ '.' :: behind.takeWhile Char.isDigit,
              behind.dropWhile Char.isDigit, ?_, .double hnumeral
                ⟨hnone, fun c hc => List.mem_takeWhile_imp hc⟩ hend'⟩
            rw [List.append_assoc, List.cons_append, hfraction]
        · exact .inl ⟨.integerLiteral, _, integral, behind, rfl, .integer hnumeral fun c hc =>
            ⟨hend c hc, fun heq => hpoint (heq ▸ hc)⟩⟩
      | false =>
        by_cases hletter : isAsciiLetter ch = true ∨ ch = '_'
        · obtain ⟨kind, hkind⟩ : ∃ kind, WordKind (ch :: rest.takeWhile isWordCharacter) kind :=
            wordKind_of_current _
          exact .inl ⟨kind, _, rest.takeWhile isWordCharacter, rest.dropWhile isWordCharacter,
            List.takeWhile_append_dropWhile.symm, .word hletter
              (fun c hc => List.mem_takeWhile_imp hc) hkind (head_dropWhile _ _)⟩
        · rw [not_or, Bool.not_eq_true] at hletter
          exact .inr ⟨_, .unknown ⟨hsingle, by
            simp only [List.mem_cons, List.not_mem_nil, or_false, not_or]
            exact ⟨hless, hgreater, hnot, hquote, hletter.2⟩, hspace, hdigit, hletter.1⟩⟩

end Failures

/-! ## Whole texts -/

section Texts

variable {location : SourceLocation} {before rest : List Char} {tokens : List Token}

theorem tokenizeFrom_skip (further rest : List Char) (location : SourceLocation) :
    tokenizeFrom further.length location (further ++ rest) =
      tokenizeFrom 0 (behind location further) rest := by
  induction further generalizing location with
  | nil => rfl
  | cons ch further ih => exact ih (location.advance ch)

theorem Stands.exists_cons {kind : TokenKind} {lexeme spelling : List Char}
    (h : Stands kind lexeme spelling rest) : ∃ ch further, spelling = ch :: further := by
  cases h with
  | integer hnumeral => exact List.exists_cons_of_ne_nil hnumeral.1
  | @double integral fraction =>
    cases integral with
    | nil => exact ⟨_, _, rfl⟩
    | cons => exact ⟨_, _, rfl⟩
  | _ => exact ⟨_, _, rfl⟩

/-- The lexer finds the tokens that the front of a text is spelled with. -/
theorem Spelled.tokenizeFrom (h : Spelled before rest tokens) :
    tokenizeFrom 0 ⟨1, 1⟩ (before ++ rest) =
      (Lexer.tokenizeFrom 0 (locationOf before) rest).map (tokens ++ ·) := by
  induction h with
  | @start rest =>
    show Lexer.tokenizeFrom 0 ⟨1, 1⟩ rest = (Lexer.tokenizeFrom 0 ⟨1, 1⟩ rest).map fun t => t
    cases Lexer.tokenizeFrom 0 ⟨1, 1⟩ rest <;> rfl
  | @space before ch rest tokens _ hch ih =>
    rw [List.append_assoc, List.singleton_append, ih, Lexer.tokenizeFrom, tokenizeNext_space hch,
      ok_bind, locationOf_concat]
    cases Lexer.tokenizeFrom 0 ((locationOf before).advance ch) rest <;> rfl
  | @token before spelling rest tokens kind lexeme _ hstands ih =>
    obtain ⟨ch, further, rfl⟩ := hstands.exists_cons
    rw [List.append_assoc, ih, List.cons_append, Lexer.tokenizeFrom, hstands.tokenizeNext,
      ok_bind, tokenizeFrom_skip, locationOf_append]
    show Except.map _ (Lexer.tokenizeFrom 0 (behind (locationOf before) (ch :: further)) rest >>=
      fun found => _) = _
    cases Lexer.tokenizeFrom 0 (behind (locationOf before) (ch :: further)) rest with
    | error status => rfl
    | ok found => exact congrArg Except.ok (List.append_assoc ..).symm

/-- Any text is spelled up to its end, or up to a place where something is wrong. -/
theorem exists_spelled (source : List Char) : ∃ before rest tokens,
    source = before ++ rest ∧ Spelled before rest tokens ∧
      (rest = [] ∨ ∃ status, Fails (locationOf before) rest status) := by
  suffices ∀ n before rest tokens, rest.length ≤ n → Spelled before rest tokens →
      ∃ before' rest' tokens', before ++ rest = before' ++ rest' ∧
        Spelled before' rest' tokens' ∧
        (rest' = [] ∨ ∃ status, Fails (locationOf before') rest' status) from
    this source.length [] source [] (Nat.le_refl _) .start
  intro n
  induction n with
  | zero =>
    intro before rest tokens hn h
    exact ⟨before, rest, tokens, rfl, h, .inl (List.length_eq_zero_iff.mp (Nat.le_zero.mp hn))⟩
  | succ n ih =>
    intro before rest tokens hn h
    cases rest with
    | nil => exact ⟨before, [], tokens, rfl, h, .inl rfl⟩
    | cons ch rest =>
      obtain hspace | ⟨kind, lexeme, further, behind, rfl, hstands⟩ | hfails :=
        goes_on (locationOf before) ch rest
      · have hnext := ih (before ++ [ch]) rest tokens (Nat.le_of_succ_le_succ hn)
          (.space h hspace)
        rwa [List.append_assoc] at hnext
      · have hlength : behind.length ≤ n := by
          simp only [List.length_cons, List.length_append] at hn
          omega
        have hnext := ih (before ++ ch :: further) behind _ hlength (.token h hstands)
        rwa [List.append_assoc] at hnext
      · exact ⟨before, ch :: rest, tokens, rfl, h, .inr hfails⟩

theorem Fails.exists_cons {status : Status} (h : Fails location rest status) :
    ∃ ch further, rest = ch :: further := by
  cases h with
  | @point integral behind hintegral =>
    cases integral with
    | nil => exact absurd rfl hintegral.1
    | cons => exact ⟨_, _, rfl⟩
  | _ => exact ⟨_, _, rfl⟩

theorem Fails.tokenizeFrom {status : Status} (h : Fails location rest status) :
    tokenizeFrom 0 location rest = .error status := by
  obtain ⟨ch, further, rfl⟩ := h.exists_cons
  rw [Lexer.tokenizeFrom, h.tokenizeNext]
  rfl

/-- Where something is wrong there is neither white space nor a token. -/
theorem Fails.nothing_stands {status : Status} (h : Fails location rest status) :
    (∀ ch ∈ rest.head?, ¬IsSpace ch) ∧ ∀ kind lexeme spelling behind,
      rest = spelling ++ behind → ¬Stands kind lexeme spelling behind := by
  obtain ⟨ch, further, rfl⟩ := h.exists_cons
  have herror := h.tokenizeNext
  refine ⟨fun c hc hspace => ?_, fun kind lexeme spelling behind hrest hstands => ?_⟩
  · obtain rfl := Option.some.inj hc
    rw [tokenizeNext_space hspace] at herror
    cases herror
  · obtain ⟨c, further', rfl⟩ := hstands.exists_cons
    obtain ⟨rfl, hfurther⟩ : ch = c ∧ further = further' ++ behind := List.cons.inj hrest
    rw [hfurther, hstands.tokenizeNext] at herror
    cases herror

theorem Fails.code {status : Status} (h : Fails location rest status) :
    status.code = if rest.head? = some quote then .incompleteInput else .parseError := by
  cases h with
  | @unknown ch _ h =>
    refine (if_neg fun heq => ?_).symm
    have hquote : ch = quote := Option.some.inj heq
    exact h.2.1 (by simp [hquote])
  | exclamation => rfl
  | @point integral _ hintegral =>
    cases integral with
    | nil => exact absurd rfl hintegral.1
    | cons c integral =>
      refine (if_neg fun heq => ?_).symm
      have hdigit := hintegral.2 c (List.mem_cons_self ..)
      rw [Option.some.inj heq] at hdigit
      cases hdigit
  | string => exact (if_pos rfl).symm

/-- The lexer gives the tokens that a text is spelled with, and the end of the input
behind them.  Where it fails, the text in front is spelled with tokens and none stands
there, and the input is incomplete only where a string is left open. -/
theorem tokenize_lossless (source : String) :
    (∀ tokens, tokenize source = .ok tokens ↔ ∃ inside, Spelled source.toList [] inside ∧
      tokens = inside ++ [⟨.endOfInput, "", locationOf source.toList⟩]) ∧
    ∀ status, tokenize source = .error status ↔ ∃ before rest inside,
      source.toList = before ++ rest ∧ Spelled before rest inside ∧
      Fails (locationOf before) rest status ∧ (∀ ch ∈ rest.head?, ¬IsSpace ch) ∧
      (∀ kind lexeme spelling behind, rest = spelling ++ behind →
        ¬Stands kind lexeme spelling behind) ∧
      status.code = if rest.head? = some quote then .incompleteInput else .parseError := by
  have hok {inside : List Token} (h : Spelled source.toList [] inside) :
      tokenize source = .ok (inside ++ [⟨.endOfInput, "", locationOf source.toList⟩]) := by
    have hrun := h.tokenizeFrom
    rwa [List.append_nil] at hrun
  have herror {before rest : List Char} {inside : List Token} {status : Status}
      (hsplit : source.toList = before ++ rest) (h : Spelled before rest inside)
      (hfails : Fails (locationOf before) rest status) : tokenize source = .error status := by
    rw [tokenize, hsplit, h.tokenizeFrom, hfails.tokenizeFrom]
    rfl
  obtain ⟨before, rest, inside, hsplit, hspelled, hrest⟩ := exists_spelled source.toList
  constructor
  · refine fun tokens => ⟨fun h => ?_, fun ⟨inside, hinside, heq⟩ => heq ▸ hok hinside⟩
    cases hrest with
    | inl hnil =>
      rw [hnil] at hspelled hsplit
      rw [List.append_nil] at hsplit
      rw [← hsplit] at hspelled
      exact ⟨inside, hspelled, Except.ok.inj (h.symm.trans (hok hspelled))⟩
    | inr hfails =>
      obtain ⟨status, hfails⟩ := hfails
      rw [herror hsplit hspelled hfails] at h
      cases h
  · refine fun status => ⟨fun h => ?_, ?_⟩
    · cases hrest with
      | inl hnil =>
        rw [hnil] at hspelled hsplit
        rw [List.append_nil] at hsplit
        rw [← hsplit] at hspelled
        rw [hok hspelled] at h
        cases h
      | inr hfails =>
        obtain ⟨status', hfails⟩ := hfails
        obtain rfl := Except.error.inj (h.symm.trans (herror hsplit hspelled hfails))
        obtain ⟨hspace, hstands⟩ := hfails.nothing_stands
        exact ⟨before, rest, inside, hsplit, hspelled, hfails, hspace, hstands, hfails.code⟩
    · rintro ⟨before, rest, inside, hsplit, hspelled, hfails, -⟩
      exact herror hsplit hspelled hfails

end Texts

end Lexer

end DanDB.Sql
