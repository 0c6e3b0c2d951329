import Mathlib.Data.List.TakeWhile
import ReportSql.Output.Token
import ReportSql.Proofs.Lexemes
import ReportSql.Tree.Read

/-!
The text that tokens are written as is read back as the same tokens. Two tokens must not run into
each other, and a token must be written as what it says it is. Placeholders are masked first.
-/
namespace ReportSql.Output

open Sql (Lexeme Lexes Symbol StartsIn breaks numberBreaks wordLexeme quotedLexeme textLexeme
  isNumeral)
open Sql.Placeholder (isName)

/-! ### Lexemes -/

/-- The words of a keyword. -/
def Mark.words : Mark → List String
  | .groupBy => ["GROUP", "BY"]
  | .orderBy => ["ORDER", "BY"]
  | .nullsFirst => ["NULLS", "FIRST"]
  | .nullsLast => ["NULLS", "LAST"]
  | .isNull => ["IS", "NULL"]
  | .isNotNull => ["IS", "NOT", "NULL"]
  | m => [m.text]

/-- The symbol of punctuation or of an operator. -/
def Mark.symbol? : Mark → Option Symbol
  | .comma => some .comma
  | .dot => some .period
  | .star | .times => some .star
  | .leftParen => some .leftParen
  | .rightParen => some .rightParen
  | .eq => some .eq
  | .ne => some .neq
  | .lt => some .lt
  | .gt => some .gt
  | .ltEq => some .ltEq
  | .gtEq => some .gtEq
  | .plus => some .plus
  | .minus => some .minus
  | .divide => some .slash
  | .modulo => some .percent
  | _ => none

def blankLexeme (c : Char) : Lexeme := ⟨.blank, [c]⟩

def symbolLexeme (s : Symbol) : Lexeme := ⟨.symbol s, s.text.toList⟩

/-- Words with a blank between each two. -/
def wordLexemes : List String → List Lexeme
  | [] => []
  | [w] => [wordLexeme w]
  | w :: rest => wordLexeme w :: blankLexeme ' ' :: wordLexemes rest

def Mark.lexemes (m : Mark) : List Lexeme :=
  match m with
  | .space => [blankLexeme ' ']
  | .newline => [blankLexeme '\n']
  | m => match m.symbol? with
    | some s => [symbolLexeme s]
    | none => wordLexemes m.words

/-- Whether a name is written without quotes. -/
def isWrittenBare (name : String) : Bool := isBareName name && !isReserved name

def nameLexeme (name : String) : Lexeme :=
  if isWrittenBare name then wordLexeme name else quotedLexeme name

/-- The lexeme of raw SQL that is a star or a number. -/
def rawLexeme (sql : String) : Lexeme :=
  if sql = "*" then symbolLexeme .star else ⟨.number sql false, sql.toList⟩

/-- The lexemes of a token, where placeholders may be masked. -/
def Token.lexemes (masked : Bool) : Token → List Lexeme
  | .mark m => m.lexemes
  | .concat => [symbolLexeme .concat]
  | .indent depth => List.replicate (2 * depth) (blankLexeme ' ')
  | .ident name | .qualified none name => [nameLexeme name]
  | .qualified (some schema) name => [nameLexeme schema, symbolLexeme .period, nameLexeme name]
  | .int value => [⟨.number (toString value) false, (toString value).toList⟩]
  | .float value => [⟨.number (floatText value) false, (floatText value).toList⟩]
  | .text value => [textLexeme value]
  | .boolean value => [wordLexeme (booleanLiteral value)]
  | .date day => [wordLexeme "DATE", blankLexeme ' ', textLexeme day]
  | .param name =>
    if masked then [textLexeme (Sql.Placeholder.sentinelMark ++ name)]
    else [symbolLexeme .percent, symbolLexeme .leftParen, wordLexeme name,
      symbolLexeme .rightParen, wordLexeme "s"]
  | .castTo type => [symbolLexeme .doubleColon, wordLexeme type]
  | .function name => [wordLexeme (Text.upper name)]
  | .raw sql => [rawLexeme sql]

def Token.chars (masked : Bool) (t : Token) : List Char :=
  (t.lexemes masked).flatMap Lexeme.source

/-- Whether a token is written as what it says it is. -/
def Token.isPlain : Token → Bool
  | .indent depth => depth != 0
  | .int value => 0 ≤ value
  | .float _ => false
  | .param name | .castTo name => isName name
  | .function name => isName (Text.upper name)
  | .raw sql => sql == "*" || isNumeral sql
  | _ => true

theorem bareName_plain {name : String} (h : isWrittenBare name = true) : isName name = true := by
  simp only [isWrittenBare, isBareName, Bool.and_eq_true] at h
  have start : ∀ c, startsBareName c = true → Sql.Placeholder.isNameStart c = true := by
    intro c
    simp only [startsBareName, Sql.Placeholder.isNameStart, Sql.isAlpha_eq, Bool.or_eq_true]
    exact Or.imp_left .inr
  have part : ∀ c, continuesBareName c = true → Sql.Placeholder.isNamePart c = true := by
    intro c
    simp only [continuesBareName, Sql.Placeholder.isNamePart, Char.isAlphanum, Sql.isAlpha_eq,
      Bool.or_eq_true]
    exact Or.imp_left (Or.imp_left .inr)
  unfold isName
  split at h
  · next c rest cons =>
    simp only [cons, Bool.and_eq_true, List.all_eq_true] at h ⊢
    exact ⟨start c h.1.1, fun d hd => part d (h.1.2 d hd)⟩
  · exact absurd h.1 Bool.false_ne_true

theorem nameLexeme_source (name : String) :
    (nameLexeme name).source = (identifier name).toList := by
  unfold nameLexeme identifier isWrittenBare
  split
  · rfl
  · exact String.toList_ofList.symm

theorem textLexeme_source (s : String) : (textLexeme s).source = (textLiteral s).toList :=
  String.toList_ofList.symm

theorem chars_eq_render {t : Token} (h : t.isPlain = true) :
    t.chars false = t.render.toList := by
  cases t with
  | mark m => cases m <;> decide
  | concat => decide
  | indent depth =>
      simp [Token.chars, Token.lexemes, Token.render, blankLexeme, List.flatMap_replicate]
  | ident n => simp [Token.chars, Token.lexemes, Token.render, nameLexeme_source]
  | qualified schema n =>
      cases schema with
      | none => simp [Token.chars, Token.lexemes, Token.render, nameLexeme_source]
      | some schema =>
          simp [Token.chars, Token.lexemes, Token.render, nameLexeme_source, symbolLexeme,
            Symbol.text]
  | float _ => cases h
  | boolean b => cases b <;> rfl
  | int _ | function _ =>
      simp [Token.chars, Token.lexemes, Token.render, wordLexeme]
  | raw sql =>
      by_cases star : sql = "*"
      · subst star
        decide
      · simp [Token.chars, Token.lexemes, Token.render, rawLexeme, star]
  | text s =>
      simp [Token.chars, Token.lexemes, Token.render, textLexeme_source]
  | date d =>
      simp [Token.chars, Token.lexemes, Token.render, textLexeme_source, dateLiteral, wordLexeme,
        blankLexeme]
  | param n =>
      simp [Token.chars, Token.lexemes, Token.render, symbolLexeme, Symbol.text, wordLexeme,
        Sql.Placeholder.text]
  | castTo type =>
      simp [Token.chars, Token.lexemes, Token.render, symbolLexeme, Symbol.text, wordLexeme,
        castSuffix]

/-! ### Tokens side by side -/

/-- Whether anything can follow a token. -/
def Token.isFree : Token → Bool
  | .mark .space | .mark .newline | .mark .comma | .mark .leftParen | .mark .rightParen
  | .mark .star | .indent _ => true
  | .raw sql => sql == "*"
  | _ => false

/-- Whether a token is an operator that a blank has to follow. -/
def Token.isOperator : Token → Bool
  | .mark .eq | .mark .ne | .mark .lt | .mark .gt | .mark .ltEq | .mark .gtEq | .mark .plus
  | .mark .times | .mark .divide | .mark .modulo | .concat => true
  | _ => false

def Token.isNumber : Token → Bool
  | .int _ | .raw _ => true
  | _ => false

/-- Whether a token ends the one before it, whatever that is. -/
def Token.isBreak : Token → Bool
  | .mark .space | .mark .newline | .mark .comma | .mark .rightParen | .indent _
  | .castTo _ => true
  | _ => false

/-- Whether a token ends a name before it. -/
def Token.endsName (t : Token) : Bool :=
  t.isBreak || t = .mark .dot || t = .mark .leftParen

/-- Whether a sign can stand before a token. -/
def Token.canBeSigned : Token → Bool
  | .mark m => m.symbol?.isNone || m = .leftParen
  | .ident _ | .qualified _ _ | .int _ | .text _ | .boolean _ | .date _ | .function _ => true
  | .raw sql => sql != "*"
  | _ => false

/-- Whether two tokens do not run into each other. -/
def fits (a b : Token) : Bool :=
  if a.isFree then true
  else if a.isOperator then b = .mark .space
  else if a.isNumber then b.isBreak
  else match a with
    | .mark .minus => b.canBeSigned
    | .mark .dot => (match b with | .ident _ | .mark .star => true | _ => false)
    | _ => b.endsName

/-- Tokens of which no two run into each other. -/
def Spaced : List Token → Prop
  | [] => True
  | [t] => t.isOperator = false
  | a :: b :: rest => fits a b = true ∧ Spaced (b :: rest)

/-- What the text after a token must be like. -/
def Ends (t : Token) (rest : List Char) : Prop :=
  if t.isFree then True
  else if t.isOperator then rest.head? = some ' '
  else if t.isNumber then StartsIn numberBreaks rest
  else match t with
    | .mark .minus => ∀ c ∈ rest.head?, Sql.Lexer.isOperatorChar c = false
    | .mark .dot => ∀ c ∈ rest.head?, c.isDigit = false
    | _ => StartsIn breaks rest

theorem lexes_word {w : String} {rest : List Char} {ls : List Lexeme} (hw : isName w = true)
    (he : StartsIn breaks rest) (hr : Lexes rest ls) :
    Lexes (w.toList ++ rest) (wordLexeme w :: ls) := by
  refine .cons ?_ (Sql.token_word hw (Sql.endsWord_of_breaks he)) hr
  obtain ⟨c, tail, cons, -⟩ := Sql.isName_cons hw
  simp [cons]

theorem lexes_blank {c : Char} {rest : List Char} {ls : List Lexeme} (hc : c = ' ' ∨ c = '\n')
    (hr : Lexes rest ls) : Lexes (c :: rest) (blankLexeme c :: ls) :=
  @Lexes.cons _ [c] _ _ (List.cons_ne_nil c []) (Sql.token_blank hc) hr

theorem lexes_symbol (sym : Symbol) {rest : List Char} {ls : List Lexeme}
    (scanned : Sql.Lexer.token (sym.text.toList ++ rest) = some (.symbol sym, rest))
    (hr : Lexes rest ls) : Lexes (sym.text.toList ++ rest) (symbolLexeme sym :: ls) := by
  refine .cons ?_ scanned hr
  cases sym <;> decide

theorem lexes_text {v : String} {rest : List Char} {ls : List Lexeme} (he : StartsIn breaks rest)
    (hr : Lexes rest ls) : Lexes ((textLexeme v).source ++ rest) (textLexeme v :: ls) :=
  .cons (by simp [textLexeme]) (Sql.token_text (Sql.head?_ne_of_startsIn he (by decide))) hr

theorem lexes_name {name : String} {rest : List Char} {ls : List Lexeme}
    (he : StartsIn breaks rest) (hr : Lexes rest ls) :
    Lexes ((nameLexeme name).source ++ rest) (nameLexeme name :: ls) := by
  unfold nameLexeme
  split
  · next bare => exact lexes_word (bareName_plain bare) he hr
  · exact .cons (by simp [quotedLexeme])
      (Sql.token_quoted (Sql.head?_ne_of_startsIn he (by decide))) hr

theorem lexes_number {v : String} {rest : List Char} {ls : List Lexeme} (hv : isNumeral v = true)
    (he : StartsIn numberBreaks rest) (hr : Lexes rest ls) :
    Lexes (v.toList ++ rest) (⟨.number v false, v.toList⟩ :: ls) := by
  refine .cons ?_ (Sql.token_number hv he) hr
  obtain ⟨whole, _, _, cut, nonempty, -⟩ := Sql.isNumeral_parts hv
  simp [cut, nonempty]

theorem lexes_words {ws : List String} {rest : List Char} {ls : List Lexeme}
    (hw : ∀ w ∈ ws, isName w = true) (he : StartsIn breaks rest) (hr : Lexes rest ls) :
    Lexes ((wordLexemes ws).flatMap Lexeme.source ++ rest) (wordLexemes ws ++ ls) := by
  induction ws with
  | nil => exact hr
  | cons w ws ih =>
      have own := hw w (by simp)
      cases ws with
      | nil =>
          simpa [wordLexemes, wordLexeme] using lexes_word own he hr
      | cons v ws =>
          have more := ih fun x hx => hw x (List.mem_cons_of_mem _ hx)
          have blank : StartsIn breaks
              (' ' :: ((wordLexemes (v :: ws)).flatMap Lexeme.source ++ rest)) := by
            rintro _ ⟨⟩
            decide
          simpa [wordLexemes, wordLexeme, blankLexeme] using
            lexes_word own blank (lexes_blank (.inl rfl) more)

theorem lexes_blanks {n : Nat} {rest : List Char} {ls : List Lexeme} (hr : Lexes rest ls) :
    Lexes ((List.replicate n (blankLexeme ' ')).flatMap Lexeme.source ++ rest)
      (List.replicate n (blankLexeme ' ') ++ ls) := by
  induction n with
  | zero => exact hr
  | succ n ih => exact lexes_blank (.inl rfl) ih

theorem token_of_space {sym : Symbol} {rest : List Char}
    (hs : sym ∈ [.eq, .neq, .lt, .gt, .ltEq, .gtEq, .plus, .star, .slash, .percent, .concat])
    (he : rest.head? = some ' ') :
    Sql.Lexer.token (sym.text.toList ++ rest) = some (.symbol sym, rest) := by
  obtain ⟨more, rfl⟩ : ∃ more, rest = ' ' :: more := by
    cases rest with
    | nil => cases he
    | cons c more =>
        cases he
        exact ⟨more, rfl⟩
  simp only [List.mem_cons, List.not_mem_nil, or_false] at hs
  rcases hs with rfl | rfl | rfl | rfl | rfl | rfl | rfl | rfl | rfl | rfl | rfl <;> rfl

theorem token_free {sym : Symbol} {rest : List Char}
    (hs : sym ∈ [.comma, .leftParen, .rightParen, .star]) :
    Sql.Lexer.token (sym.text.toList ++ rest) = some (.symbol sym, rest) := by
  simp only [List.mem_cons, List.not_mem_nil, or_false] at hs
  rcases hs with rfl | rfl | rfl | rfl <;> exact Sql.token_symbol (by decide)

theorem token_period {rest : List Char} (he : ∀ c ∈ rest.head?, c.isDigit = false) :
    Sql.Lexer.token (Symbol.period.text.toList ++ rest) = some (.symbol .period, rest) := by
  have places : rest.takeWhile Char.isDigit = [] := by
    cases rest with
    | nil => rfl
    | cons c rest => simp [he c rfl]
  show Sql.Lexer.token ('.' :: rest) = _
  unfold Sql.Lexer.token
  rw [Sql.letteredToken_eq_none (by decide)]
  show some (Sql.Lexer.numberToken ('.' :: rest)) = _
  simp [Sql.Lexer.numberToken, places]

theorem words_plain (m : Mark) (hm : m.symbol? = none) (hs : m ≠ .space) (hn : m ≠ .newline) :
    ∀ w ∈ m.words, isName w = true := by
  cases m <;> first | contradiction | decide

theorem lexes_mark {m : Mark} {rest : List Char} {ls : List Lexeme} (he : Ends (.mark m) rest)
    (hr : Lexes rest ls) :
    Lexes (m.lexemes.flatMap Lexeme.source ++ rest) (m.lexemes ++ ls) := by
  cases m with
  | space | newline => exact lexes_blank (by decide) hr
  | comma => exact lexes_symbol .comma (token_free (by decide)) hr
  | leftParen => exact lexes_symbol .leftParen (token_free (by decide)) hr
  | rightParen => exact lexes_symbol .rightParen (token_free (by decide)) hr
  | star => exact lexes_symbol .star (token_free (by decide)) hr
  | eq => exact lexes_symbol .eq (token_of_space (by decide) he) hr
  | ne => exact lexes_symbol .neq (token_of_space (by decide) he) hr
  | lt => exact lexes_symbol .lt (token_of_space (by decide) he) hr
  | gt => exact lexes_symbol .gt (token_of_space (by decide) he) hr
  | ltEq => exact lexes_symbol .ltEq (token_of_space (by decide) he) hr
  | gtEq => exact lexes_symbol .gtEq (token_of_space (by decide) he) hr
  | plus => exact lexes_symbol .plus (token_of_space (by decide) he) hr
  | times => exact lexes_symbol .star (token_of_space (by decide) he) hr
  | divide => exact lexes_symbol .slash (token_of_space (by decide) he) hr
  | modulo => exact lexes_symbol .percent (token_of_space (by decide) he) hr
  | minus => exact lexes_symbol .minus (Sql.token_minus he) hr
  | dot => exact lexes_symbol .period (token_period he) hr
  | _ => exact lexes_words (words_plain _ rfl nofun nofun) he hr

theorem isNumeral_of_digits {v : String} (hne : v.toList ≠ [])
    (hv : ∀ c ∈ v.toList, c.isDigit = true) : isNumeral v = true := by
  have taken : v.toList.takeWhile Char.isDigit = v.toList := List.takeWhile_eq_self_iff.mpr hv
  have dropped : v.toList.dropWhile Char.isDigit = [] := List.dropWhile_eq_nil_iff.mpr hv
  simp [isNumeral, taken, dropped, hne]

theorem isNumeral_nat (n : Nat) : isNumeral (toString n) = true := by
  have : (toString n).toList = Nat.toDigits 10 n := by
    simp [Nat.repr, toString]
  refine isNumeral_of_digits ?_ fun c hc => ?_
  · rw [this]
    exact Nat.toDigits_ne_nil
  · rw [this] at hc
    exact Nat.isDigit_of_mem_toDigits (by decide) (by decide) hc

theorem startsIn_breaks_cons {c : Char} (s : List Char) (hc : c ∈ breaks) :
    StartsIn breaks (c :: s) := by
  rintro _ ⟨⟩
  exact hc

theorem startsIn_breaks_symbol {sym : Symbol} (s : List Char)
    (hs : sym = .period ∨ sym = .rightParen) : StartsIn breaks (sym.text.toList ++ s) := by
  rcases hs with rfl | rfl <;> exact startsIn_breaks_cons _ (by decide)

theorem nameLexeme_head (name : String) :
    ∃ c more, (nameLexeme name).source = c :: more ∧ c.isDigit = false ∧
      Sql.Lexer.isOperatorChar c = false := by
  unfold nameLexeme
  split
  · next bare =>
    obtain ⟨c, tail, cons, start, -⟩ := Sql.isName_cons (bareName_plain bare)
    obtain ⟨-, -, digit, -, operator⟩ := Sql.plainStart_only start
    exact ⟨c, tail, cons, digit, operator⟩
  · exact ⟨'"', _, rfl, by decide, by decide⟩

/-- A token is read as its lexemes where what follows does not continue it. -/
theorem lexes_token {masked : Bool} {t : Token} {rest : List Char} {ls : List Lexeme}
    (hp : t.isPlain = true) (he : Ends t rest) (hr : Lexes rest ls) :
    Lexes (t.chars masked ++ rest) (t.lexemes masked ++ ls) := by
  cases t with
  | mark m => exact lexes_mark he hr
  | concat => exact lexes_symbol .concat (token_of_space (by decide) he) hr
  | indent depth => exact lexes_blanks hr
  | ident name => simpa [Token.chars, Token.lexemes] using lexes_name he hr
  | qualified schema name =>
      cases schema with
      | none => simpa [Token.chars, Token.lexemes] using lexes_name he hr
      | some schema =>
          obtain ⟨c, more, cons, digit, -⟩ := nameLexeme_head name
          have period := lexes_symbol .period (token_period (by simp [cons, digit]))
            (@lexes_name name _ _ he hr)
          have own := @lexes_name schema _ _ (startsIn_breaks_symbol _ (.inl rfl)) period
          simpa [Token.chars, Token.lexemes, symbolLexeme] using own
  | int value =>
      obtain ⟨n, rfl⟩ := Int.eq_ofNat_of_zero_le (of_decide_eq_true hp)
      simp only [Token.chars, Token.lexemes, List.flatMap_cons, List.flatMap_nil,
        List.append_nil]
      exact lexes_number (isNumeral_nat n) he hr
  | float _ => cases hp
  | text v => simpa [Token.chars, Token.lexemes] using lexes_text he hr
  | boolean b =>
      cases b
      · simpa [Token.chars, Token.lexemes, wordLexeme, booleanLiteral] using
          @lexes_word "false" _ _ (by decide) he hr
      · simpa [Token.chars, Token.lexemes, wordLexeme, booleanLiteral] using
          @lexes_word "true" _ _ (by decide) he hr
  | date d =>
      have word := @lexes_word "DATE" _ _ (by decide) (startsIn_breaks_cons _ (by decide))
        (lexes_blank (.inl rfl) (@lexes_text d _ _ he hr))
      simpa [Token.chars, Token.lexemes, wordLexeme, blankLexeme] using word
  | param name =>
      cases masked with
      | true => simpa [Token.chars, Token.lexemes] using lexes_text he hr
      | false =>
          have close := lexes_symbol .rightParen (token_free (by decide))
            (@lexes_word "s" _ _ (by decide) he hr)
          have word := @lexes_word name _ _ hp (startsIn_breaks_symbol _ (.inr rfl)) close
          have opening := lexes_symbol .percent (Sql.token_symbol (by decide))
            (lexes_symbol .leftParen (token_free (by decide)) word)
          simpa [Token.chars, Token.lexemes, symbolLexeme, wordLexeme] using opening
  | castTo type =>
      have cast := lexes_symbol .doubleColon (Sql.token_symbol (by decide))
        (@lexes_word type _ _ hp he hr)
      simpa [Token.chars, Token.lexemes, symbolLexeme, wordLexeme] using cast
  | function name => simpa [Token.chars, Token.lexemes, wordLexeme] using lexes_word hp he hr
  | raw sql =>
      by_cases star : sql = "*"
      · subst star
        exact lexes_symbol .star (token_free (by decide)) hr
      · have hn : isNumeral sql = true := by simpa [Token.isPlain, star] using hp
        have ends : StartsIn numberBreaks rest := by
          simpa [Ends, Token.isFree, Token.isOperator, Token.isNumber, star] using he
        simpa [Token.chars, Token.lexemes, rawLexeme, star] using lexes_number hn ends hr

/-! ### Texts of tokens -/

theorem startsIn_of_isBreak {masked : Bool} {t : Token} {rest : List Char}
    (hp : t.isPlain = true) (hb : t.isBreak = true) :
    StartsIn numberBreaks (t.chars masked ++ rest) := by
  cases t with
  | mark m =>
      cases m <;> first | (cases hb; done) | (rintro _ ⟨⟩; decide)
  | indent depth =>
      cases depth with
      | zero => cases hp
      | succ depth =>
          rintro _ ⟨⟩
          decide
  | castTo type =>
      rintro _ ⟨⟩
      decide
  | _ => cases hb

theorem startsIn_of_endsName {masked : Bool} {t : Token} {rest : List Char}
    (hp : t.isPlain = true) (hb : t.endsName = true) :
    StartsIn breaks (t.chars masked ++ rest) := by
  simp only [Token.endsName, Bool.or_eq_true, decide_eq_true_eq] at hb
  rcases hb with (hb | rfl) | rfl
  · have : ∀ c ∈ numberBreaks, c ∈ breaks := List.all_iff_forall_prop.mp (by decide)
    exact fun c hc => this c (startsIn_of_isBreak hp hb c hc)
  · rintro _ ⟨⟩
    decide
  · rintro _ ⟨⟩
    decide

theorem numeral_head {v : String} (h : isNumeral v = true) :
    ∃ c more, v.toList = c :: more ∧ c.isDigit = true := by
  obtain ⟨whole, point, places, cut, nonempty, digits, -⟩ := Sql.isNumeral_parts h
  obtain ⟨c, tail, rfl⟩ := List.exists_cons_of_ne_nil nonempty
  exact ⟨c, tail ++ point ++ places, cut, digits c (by simp)⟩

theorem head_of_canBeSigned {masked : Bool} {t : Token} {rest : List Char}
    (hp : t.isPlain = true) (hb : t.canBeSigned = true) :
    ∀ c ∈ (t.chars masked ++ rest).head?, Sql.Lexer.isOperatorChar c = false := by
  have name : ∀ n more, ∀ c ∈ ((nameLexeme n).source ++ more).head?,
      Sql.Lexer.isOperatorChar c = false := by
    intro n more
    obtain ⟨c, tail, cons, -, operator⟩ := nameLexeme_head n
    simp [cons, operator]
  have number : ∀ v more, isNumeral v = true → ∀ c ∈ (v.toList ++ more).head?,
      Sql.Lexer.isOperatorChar c = false := by
    intro v more hv
    obtain ⟨c, tail, cons, digit⟩ := numeral_head hv
    simp [cons, (Sql.digit_only digit).2.2.2.2]
  cases t with
  | mark m => cases m <;> first | (cases hb; done) | (rintro _ ⟨⟩; decide)
  | ident n => simpa [Token.chars, Token.lexemes] using name n rest
  | qualified schema n =>
      cases schema with
      | none => simpa [Token.chars, Token.lexemes] using name n rest
      | some schema =>
          simpa [Token.chars, Token.lexemes] using
            name schema ((symbolLexeme .period).source ++ ((nameLexeme n).source ++ rest))
  | int value =>
      obtain ⟨n, rfl⟩ := Int.eq_ofNat_of_zero_le (of_decide_eq_true hp)
      simp only [Token.chars, Token.lexemes, List.flatMap_cons, List.flatMap_nil, List.append_nil]
      exact number _ rest (isNumeral_nat n)
  | raw sql =>
      have star : sql ≠ "*" := by simpa [Token.canBeSigned] using hb
      have hn : isNumeral sql = true := by simpa [Token.isPlain, star] using hp
      simpa [Token.chars, Token.lexemes, rawLexeme, star] using number sql rest hn
  | text v | date d =>
      rintro _ ⟨⟩
      decide
  | boolean b => cases b <;> (rintro _ ⟨⟩; decide)
  | function n =>
      obtain ⟨c, tail, cons, start, -⟩ := Sql.isName_cons hp
      simp [Token.chars, Token.lexemes, wordLexeme, cons, (Sql.plainStart_only start).2.2.2.2]
  | _ => cases hb

theorem ends_of_fits {masked : Bool} {a b : Token} {rest : List Char} (hf : fits a b = true)
    (hb : b.isPlain = true) : Ends a (b.chars masked ++ rest) := by
  unfold fits at hf
  unfold Ends
  by_cases free : a.isFree = true
  · simp only [free, if_true]
  rw [if_neg free] at hf ⊢
  by_cases operator : a.isOperator = true
  · rw [if_pos operator] at hf ⊢
    obtain rfl : b = .mark .space := of_decide_eq_true hf
    rfl
  rw [if_neg operator] at hf ⊢
  by_cases number : a.isNumber = true
  · rw [if_pos number] at hf ⊢
    exact startsIn_of_isBreak hb hf
  rw [if_neg number] at hf ⊢
  split at hf
  · exact head_of_canBeSigned hb hf
  · split at hf
    · next name =>
      obtain ⟨c, tail, cons, digit, -⟩ := nameLexeme_head name
      simp [Token.chars, Token.lexemes, cons, digit]
    · rintro _ ⟨⟩
      decide
    · cases hf
  · exact startsIn_of_endsName hb hf

/-- Whether tokens are all written as what they say they are and do not run into each other. -/
structure Legible (ts : List Token) : Prop where
  plain : ∀ t ∈ ts, t.isPlain = true
  spaced : Spaced ts

theorem ends_nil {t : Token} (hp : t.isPlain = true) (ht : t.isOperator = false) : Ends t [] := by
  unfold Ends
  cases t with
  | mark m =>
      cases m <;> first
        | (cases ht; done)
        | simp [Token.isFree, Token.isOperator, Token.isNumber, StartsIn]
  | concat => cases ht
  | _ => simp [Token.isFree, Token.isOperator, Token.isNumber, StartsIn]

theorem lexes_tokens {masked : Bool} {ts : List Token} (h : Legible ts) :
    Lexes (ts.flatMap (Token.chars masked)) (ts.flatMap (Token.lexemes masked)) := by
  induction ts with
  | nil => exact .nil
  | cons a ts ih =>
      have plain := h.plain a (by simp)
      have others : ∀ t ∈ ts, t.isPlain = true := fun t ht => h.plain t (List.mem_cons_of_mem _ ht)
      cases ts with
      | nil =>
          have := @lexes_token masked _ _ _ plain (ends_nil plain h.spaced) .nil
          simpa using this
      | cons b ts =>
          have more := ih ⟨others, h.spaced.2⟩
          exact lexes_token plain (ends_of_fits h.spaced.1 (others b (by simp))) more

/-! ### Masking -/

open Sql.Placeholder (Place placeholderAt? sentinel)
open Text (Segment segments segmentsAfter)

/-- The placeholders of places and what stands between them. -/
abbrev found (ps : List Place) : List (Segment String Place) := segments placeholderAt? ps

theorem found_cons {p : Place} {ps : List Place} (h : placeholderAt? (p :: ps) = none) :
    found (p :: ps) = .plain p :: found ps := by
  simp [found, segments, segmentsAfter, h]

theorem placeholderAt?_none {c : Char} {start : Bool} {ps : List Place}
    (h : c ≠ '%' ∨ start = false) : placeholderAt? ((c, start) :: ps) = none := by
  unfold placeholderAt?
  split
  · next heq => simp_all
  · rfl

theorem found_inside {cs : List Char} {ps : List Place} :
    found (cs.map (·, false) ++ ps) = (cs.map (·, false)).map .plain ++ found ps := by
  induction cs with
  | nil => rfl
  | cons c cs ih =>
      rw [List.map_cons, List.cons_append, found_cons (placeholderAt?_none (.inr rfl)), ih]
      rfl

/-- Whether no placeholder starts in a lexeme. -/
def Quiet (l : Lexeme) : Prop :=
  (∀ spelling, l.token ≠ .operator spelling) ∧ l.source.head? ≠ some '%'

theorem found_lexeme {l : Lexeme} {ps : List Place} (hl : Quiet l) :
    found (Sql.Placeholder.Lexeme.places l ++ ps) =
      (Sql.Placeholder.Lexeme.places l).map .plain ++ found ps := by
  obtain ⟨t, source⟩ := l
  obtain ⟨ho, hc⟩ := hl
  cases source with
  | nil =>
      have : Sql.Placeholder.Lexeme.places ⟨t, []⟩ = [] := by
        unfold Sql.Placeholder.Lexeme.places
        split <;> simp_all
      rw [this]
      rfl
  | cons c rest =>
      have : Sql.Placeholder.Lexeme.places ⟨t, c :: rest⟩ = (c, true) :: rest.map (·, false) := by
        unfold Sql.Placeholder.Lexeme.places
        split <;> simp_all
      rw [this, List.cons_append,
        found_cons (placeholderAt?_none (.inl (by simpa using hc))), found_inside]
      rfl

theorem found_lexemes {ls : List Lexeme} {ps : List Place} (hl : ∀ l ∈ ls, Quiet l) :
    found (ls.flatMap Sql.Placeholder.Lexeme.places ++ ps) =
      (ls.flatMap Sql.Placeholder.Lexeme.places).map .plain ++ found ps := by
  induction ls with
  | nil => rfl
  | cons l ls ih =>
      simp only [List.flatMap_cons, List.append_assoc, List.map_append]
      rw [found_lexeme (hl l (by simp)), ih fun x hx => hl x (List.mem_cons_of_mem _ hx)]

theorem leadingName_append {name : String} {rest : List Char} (hn : isName name = true)
    (hr : ∀ c ∈ rest.head?, Sql.Placeholder.isNamePart c = false) :
    Sql.Placeholder.leadingName (name.toList ++ rest) = name.toList := by
  obtain ⟨c, tail, cons, start, parts⟩ := Sql.isName_cons hn
  have taken : (tail ++ rest).takeWhile Sql.Placeholder.isNamePart = tail := by
    rw [cons] at parts
    rw [List.takeWhile_append_of_pos fun d hd => parts d (List.mem_cons_of_mem _ hd)]
    cases rest with
    | nil => simp
    | cons d rest => simp [hr d rfl]
  rw [cons, List.cons_append, Sql.Placeholder.leadingName, if_pos start, taken]

theorem segmentsAfter_skip {α β : Type} {pattern : List β → Option (α × Nat)} (l rest : List β) :
    segmentsAfter pattern l.length (l ++ rest) = segmentsAfter pattern 0 rest := by
  induction l with
  | nil => rfl
  | cons b l ih => exact ih

theorem map_fst_places (l : Lexeme) :
    (Sql.Placeholder.Lexeme.places l).map Prod.fst = l.source := by
  obtain ⟨t, source⟩ := l
  unfold Sql.Placeholder.Lexeme.places
  split <;> simp_all [Function.comp_def]

/-- The places of a placeholder after the percent sign. -/
def placesAfterPercent (name : String) : List Place :=
  [symbolLexeme .leftParen, wordLexeme name, symbolLexeme .rightParen, wordLexeme "s"].flatMap
    Sql.Placeholder.Lexeme.places

theorem map_fst_placesAfterPercent (name : String) :
    (placesAfterPercent name).map Prod.fst = '(' :: (name.toList ++ [')', 's']) := by
  simp only [placesAfterPercent, List.flatMap_cons, List.flatMap_nil, List.append_nil,
    List.map_append, map_fst_places, symbolLexeme, wordLexeme]
  rfl

theorem doubled_eq_self {quote : Char} {s : List Char} (h : quote ∉ s) : doubled quote s = s := by
  induction s with
  | nil => rfl
  | cons c s ih =>
      simp only [List.mem_cons, not_or] at h
      have first : doubled quote (c :: s) =
          (if c == quote then [c, c] else [c]) ++ doubled quote s := rfl
      rw [first, if_neg (by simpa using Ne.symm h.1), ih h.2]
      rfl

theorem sentinel_chars {name : String} (hn : isName name = true) :
    (sentinel name).toList = (Token.param name).chars true := by
  obtain ⟨-, -, -, -, parts⟩ := Sql.isName_cons hn
  have noQuote : '\'' ∉ Sql.Placeholder.sentinelMark.toList ++ name.toList := by
    rw [List.mem_append, not_or]
    refine ⟨by decide, fun h => ?_⟩
    exact absurd (parts _ h) (by decide)
  simp [Token.chars, Token.lexemes, textLexeme, doubled_eq_self noQuote, sentinel]

theorem found_param {name : String} {ps : List Place} (hn : isName name = true) :
    found (((Token.param name).lexemes false).flatMap Sql.Placeholder.Lexeme.places ++ ps) =
      .found name :: found ps := by
  have split : ((Token.param name).lexemes false).flatMap Sql.Placeholder.Lexeme.places =
      ('%', true) :: placesAfterPercent name := rfl
  have texts := map_fst_placesAfterPercent name
  have length : (placesAfterPercent name).length = name.toList.length + 3 := by
    rw [← List.length_map Prod.fst, texts]
    simp
  have own := @leadingName_append name (')' :: 's' :: ps.map Prod.fst) hn (by
    rintro _ ⟨⟩
    decide)
  have nonempty : name.toList.isEmpty = false := by
    obtain ⟨c, tail, cons, -⟩ := Sql.isName_cons hn
    simp [cons]
  have chars : (('%', true) :: placesAfterPercent name ++ ps).map Prod.fst =
      ['%', '('] ++ (name.toList ++ ')' :: 's' :: ps.map Prod.fst) := by
    simp [texts]
  have first : placeholderAt? (('%', true) :: placesAfterPercent name ++ ps) =
      some (name, name.toList.length + 4) := by
    show Sql.Placeholder.nameBetween ['%', '('] [')', 's']
      ((('%', true) :: placesAfterPercent name ++ ps).map Prod.fst) = _
    rw [chars]
    simp only [Sql.Placeholder.nameBetween, List.prefix_append, List.isPrefixOf_iff_prefix, if_true,
      List.drop_left, own, nonempty, Bool.false_eq_true, if_false, String.ofList_toList,
      ← List.drop_drop]
    simp
    omega
  rw [split, found, segments, List.cons_append, segmentsAfter, ← List.cons_append, first]
  simp only
  rw [show name.toList.length + 4 - 1 = (placesAfterPercent name).length by omega,
    segmentsAfter_skip]
  rfl

theorem quiet_nameLexeme (name : String) : Quiet (nameLexeme name) := by
  unfold nameLexeme
  split
  · next bare =>
    obtain ⟨c, tail, cons, start, -⟩ := Sql.isName_cons (bareName_plain bare)
    refine ⟨nofun, ?_⟩
    have := (Sql.plainStart_only start).2.2.2.1
    simp only [List.mem_cons, List.not_mem_nil, or_false, not_or] at this
    simp [wordLexeme, cons, this]
  · exact ⟨nofun, nofun⟩

theorem quiet_wordLexeme {name : String} (hn : isName name = true) : Quiet (wordLexeme name) := by
  obtain ⟨c, tail, cons, start, -⟩ := Sql.isName_cons hn
  refine ⟨nofun, ?_⟩
  have := (Sql.plainStart_only start).2.2.2.1
  simp only [List.mem_cons, List.not_mem_nil, or_false, not_or] at this
  simp [wordLexeme, cons, this]

theorem quiet_number {v : String} (hv : isNumeral v = true) :
    Quiet ⟨.number v false, v.toList⟩ := by
  obtain ⟨c, tail, cons, digit⟩ := numeral_head hv
  refine ⟨nofun, ?_⟩
  have := (Sql.digit_only digit).2.2.2.1
  simp only [List.mem_cons, List.not_mem_nil, or_false, not_or] at this
  simp [cons, this]

theorem quiet_wordLexemes {ws : List String} (hw : ∀ w ∈ ws, isName w = true) :
    ∀ l ∈ wordLexemes ws, Quiet l := by
  induction ws with
  | nil => simp [wordLexemes]
  | cons w ws ih =>
      have own := quiet_wordLexeme (hw w (by simp))
      cases ws with
      | nil => simpa [wordLexemes] using own
      | cons v ws =>
          have more := ih fun x hx => hw x (List.mem_cons_of_mem _ hx)
          simp only [wordLexemes, List.mem_cons, forall_eq_or_imp] at more ⊢
          exact ⟨own, ⟨nofun, by decide⟩, more⟩

/-- No placeholder starts in a token that is none and no percent sign. -/
theorem quiet_token {t : Token} (hp : t.isPlain = true) (hm : t ≠ .mark .modulo)
    (hn : ∀ name, t ≠ .param name) : ∀ l ∈ t.lexemes false, Quiet l := by
  have symbol : ∀ sym, sym ≠ .percent → Quiet (symbolLexeme sym) := by
    intro sym hs
    refine ⟨nofun, ?_⟩
    cases sym <;> first | contradiction | decide
  have text : ∀ v, Quiet (textLexeme v) := fun v => ⟨nofun, nofun⟩
  have blank : ∀ c, c ≠ '%' → Quiet (blankLexeme c) := by
    intro c hc
    exact ⟨nofun, by simpa [blankLexeme] using hc⟩
  cases t with
  | mark m =>
      cases m with
      | modulo => contradiction
      | space | newline => simpa [Token.lexemes, Mark.lexemes] using blank _ (by decide)
      | comma | leftParen | rightParen | star | eq | ne | lt | gt | ltEq | gtEq | plus | times
      | divide | minus | dot =>
          intro l hl
          obtain rfl := List.mem_singleton.mp hl
          exact symbol _ nofun
      | _ => exact quiet_wordLexemes (words_plain _ rfl nofun nofun)
  | concat => simpa [Token.lexemes] using symbol .concat nofun
  | indent depth =>
      intro l hl
      obtain rfl := (List.mem_replicate.mp hl).2
      exact blank ' ' (by decide)
  | ident n => simpa [Token.lexemes] using quiet_nameLexeme n
  | qualified schema n =>
      cases schema with
      | none => simpa [Token.lexemes] using quiet_nameLexeme n
      | some schema =>
          simp only [Token.lexemes, List.mem_cons, List.not_mem_nil, or_false, forall_eq_or_imp,
            forall_eq]
          exact ⟨quiet_nameLexeme schema, symbol .period nofun, quiet_nameLexeme n⟩
  | int value =>
      obtain ⟨n, rfl⟩ := Int.eq_ofNat_of_zero_le (of_decide_eq_true hp)
      intro l hl
      obtain rfl := List.mem_singleton.mp hl
      exact quiet_number (isNumeral_nat n)
  | float _ => cases hp
  | text v => simpa [Token.lexemes] using text v
  | boolean b => cases b <;> simpa [Token.lexemes] using quiet_wordLexeme (by decide)
  | date d =>
      simp only [Token.lexemes, List.mem_cons, List.not_mem_nil, or_false, forall_eq_or_imp,
        forall_eq]
      exact ⟨quiet_wordLexeme (by decide), blank ' ' (by decide), text d⟩
  | param name => exact absurd rfl (hn name)
  | castTo type =>
      simp only [Token.lexemes, List.mem_cons, List.not_mem_nil, or_false, forall_eq_or_imp,
        forall_eq]
      exact ⟨symbol .doubleColon nofun, quiet_wordLexeme hp⟩
  | function n => simpa [Token.lexemes] using quiet_wordLexeme hp
  | raw sql =>
      by_cases star : sql = "*"
      · subst star
        intro l hl
        obtain rfl := List.mem_singleton.mp hl
        exact symbol .star nofun
      · have hn : isNumeral sql = true := by simpa [Token.isPlain, star] using hp
        simpa [Token.lexemes, rawLexeme, star] using quiet_number hn

theorem chars_masked {t : Token} (hn : ∀ name, t ≠ .param name) :
    t.chars true = (t.lexemes false).flatMap Lexeme.source := by
  cases t with
  | param name => exact absurd rfl (hn name)
  | qualified schema name => cases schema <;> rfl
  | _ => rfl

/-- A percent sign that is an operator starts no placeholder, since a blank follows it. -/
theorem found_modulo {ps : List Place} :
    found (('%', true) :: (' ', true) :: ps) = .plain ('%', true) :: found ((' ', true) :: ps) := by
  refine found_cons ?_
  unfold placeholderAt?
  split
  · next h =>
    cases h
    rfl
  · rfl

/-- The places of a token, or the placeholder that it is. -/
def Token.segments : Token → List (Segment String Place)
  | .param name => [.found name]
  | t => ((t.lexemes false).flatMap Sql.Placeholder.Lexeme.places).map .plain

theorem segments_of_ne {t : Token} (hn : ∀ name, t ≠ .param name) :
    t.segments = ((t.lexemes false).flatMap Sql.Placeholder.Lexeme.places).map .plain := by
  cases t with
  | param name => exact absurd rfl (hn name)
  | _ => rfl

theorem found_token {t : Token} {ps : List Place} (hp : t.isPlain = true)
    (hm : t ≠ .mark .modulo) :
    found ((t.lexemes false).flatMap Sql.Placeholder.Lexeme.places ++ ps) =
      t.segments ++ found ps := by
  by_cases param : ∃ name, t = .param name
  · obtain ⟨name, rfl⟩ := param
    exact found_param hp
  · have param : ∀ name, t ≠ .param name := fun name h => param ⟨name, h⟩
    rw [found_lexemes (quiet_token hp hm param), segments_of_ne param]

/-- The placeholders of a text of tokens are the tokens that are placeholders. -/
theorem found_tokens {ts : List Token} (h : Legible ts) :
    found ((ts.flatMap (Token.lexemes false)).flatMap Sql.Placeholder.Lexeme.places) =
      ts.flatMap Token.segments := by
  induction ts with
  | nil => rfl
  | cons a ts ih =>
      have plain := h.plain a (by simp)
      have others : ∀ t ∈ ts, t.isPlain = true := fun t ht => h.plain t (List.mem_cons_of_mem _ ht)
      have more : Spaced ts := by
        cases ts with
        | nil => trivial
        | cons b ts => exact h.spaced.2
      have ih := ih ⟨others, more⟩
      simp only [List.flatMap_cons, List.flatMap_append]
      by_cases modulo : a = .mark .modulo
      · subst modulo
        cases ts with
        | nil => exact absurd (show Token.isOperator (.mark .modulo) = false from h.spaced) nofun
        | cons b ts =>
            obtain rfl : b = .mark .space := of_decide_eq_true h.spaced.1
            rw [← ih]
            exact found_modulo
      · rw [found_token plain modulo, ih]

/-- The text of a segment where a placeholder is replaced by its sentinel. -/
def maskedText : Segment String Place → List Char
  | .plain (c, _) => [c]
  | .found name => (sentinel name).toList

theorem maskedText_segments {t : Token} (hp : t.isPlain = true) :
    t.segments.flatMap maskedText = t.chars true := by
  by_cases param : ∃ name, t = .param name
  · obtain ⟨name, rfl⟩ := param
    rw [← sentinel_chars hp]
    simp [Token.segments, maskedText]
  · have param : ∀ name, t ≠ .param name := fun name h => param ⟨name, h⟩
    have plain : ∀ ps : List Place, (ps.map .plain).flatMap maskedText = ps.map Prod.fst := by
      intro ps
      rw [List.flatMap_map, List.map_eq_flatMap]
      rfl
    rw [segments_of_ne param, chars_masked param, plain]
    simp [List.map_flatMap, map_fst_places]

theorem maskedText_tokens {ts : List Token} (h : ∀ t ∈ ts, t.isPlain = true) :
    (ts.flatMap Token.segments).flatMap maskedText = ts.flatMap (Token.chars true) := by
  induction ts with
  | nil => rfl
  | cons t ts ih =>
      rw [List.flatMap_cons, List.flatMap_append, maskedText_segments (h t (by simp)),
        ih fun x hx => h x (List.mem_cons_of_mem _ hx), List.flatMap_cons]

/-! ### Reading -/

/-- The tokens that a written token is read as, without the blanks in it. -/
def Token.spelling (t : Token) : List Sql.Token := Sql.significantTokens (t.lexemes true)

theorem toList_sqlText {ts : List Token} (h : ∀ t ∈ ts, t.isPlain = true) :
    (sqlText ts).toList = ts.flatMap (Token.chars false) := by
  induction ts with
  | nil => rfl
  | cons t ts ih =>
      have own := chars_eq_render (h t (by simp))
      have more := ih fun x hx => h x (List.mem_cons_of_mem _ hx)
      have split : sqlText (t :: ts) = t.render ++ sqlText ts := by
        simp [sqlText]
      rw [split, String.toList_append, more, ← own, List.flatMap_cons]

/-- A text of legible tokens is split into what its tokens are split into. -/
theorem split_sqlText {ts : List Token} (h : Legible ts) :
    Sql.Placeholder.split (sqlText ts).toList = ts.flatMap Token.segments := by
  have places : Sql.Placeholder.places (ts.flatMap (Token.chars false)) =
      (ts.flatMap (Token.lexemes false)).flatMap Sql.Placeholder.Lexeme.places := by
    rw [Sql.Placeholder.places, Sql.lexChars_of_lexes (lexes_tokens h)]
  rw [Sql.Placeholder.split, toList_sqlText h.plain, places]
  exact found_tokens h

theorem mask_sqlText {ts : List Token} (h : Legible ts) :
    Sql.Placeholder.mask (sqlText ts) = String.ofList (ts.flatMap (Token.chars true)) := by
  rw [Sql.Placeholder.mask, Sql.Placeholder.maskChars, split_sqlText h,
    ← maskedText_tokens h.plain]
  rfl

theorem significantTokens_flatMap (ts : List Token) :
    Sql.significantTokens (ts.flatMap (Token.lexemes true)) = ts.flatMap Token.spelling := by
  induction ts with
  | nil => rfl
  | cons t ts ih =>
      rw [List.flatMap_cons, List.flatMap_cons, ← ih]
      simp [Token.spelling, Sql.significantTokens]

/-- A text of legible tokens is read as their spellings. -/
theorem statements?_sqlText {ts : List Token} (h : Legible ts) :
    Tree.statements? (sqlText ts) =
      (Sql.readStatements (ts.flatMap Token.spelling)).toOption := by
  have lexed : Sql.lex (Sql.Placeholder.mask (sqlText ts)) =
      some (ts.flatMap (Token.lexemes true)) := by
    rw [mask_sqlText h, Sql.lex, String.toList_ofList]
    exact Sql.lexChars_of_lexes (lexes_tokens h)
  unfold Tree.statements? Sql.statements?
  rw [lexed]
  simp only [Option.bind_eq_bind, Option.bind_some, significantTokens_flatMap]

end ReportSql.Output
