import ReportSql.Proofs.ParserRuns
import ReportSql.Proofs.WrittenTokens

/-!
The tokens that written tokens are read as.
-/
namespace ReportSql.Output

open Sql.Parse (commaJoined)

/-- The tokens that some written tokens are read as. -/
def spelled (ts : List Token) : List Sql.Token := ts.flatMap Token.spelling

variable {ts us : List Token} {name : String}

@[simp] theorem spelled_nil : spelled [] = [] := rfl

@[simp] theorem spelled_cons (t : Token) : spelled (t :: ts) = t.spelling ++ spelled ts := rfl

@[simp] theorem spelled_append : spelled (ts ++ us) = spelled ts ++ spelled us :=
  List.flatMap_append

/-- The token of a name, which spells a keyword only if it is written without quotes. -/
def nameToken (name : String) : Sql.Token := .word name (!isWrittenBare name)

/-- The tokens that a mark is read as. -/
def Mark.spelling (m : Mark) : List Sql.Token :=
  match m with
  | .space | .newline => []
  | m => match m.symbol? with
    | some s => [.symbol s]
    | none => m.words.map (Sql.Token.word · Bool.false)

@[simp] theorem spelling_mark (m : Mark) : (Token.mark m).spelling = m.spelling := by
  cases m <;> rfl

@[simp] theorem spelling_concat : Token.concat.spelling = [.symbol .concat] := rfl

@[simp] theorem spelling_indent {depth : Nat} : (Token.indent depth).spelling = [] := by
  simp [Token.spelling, Token.lexemes, Sql.significantTokens, blankLexeme]

theorem token_nameLexeme : (nameLexeme name).token = nameToken name := by
  unfold nameLexeme nameToken
  split
  · next bare => simp [Sql.wordLexeme, bare]
  · next bare => simp [Sql.quotedLexeme, bare]

@[simp] theorem spelling_ident : (Token.ident name).spelling = [nameToken name] := by
  simp only [Token.spelling, Token.lexemes, Sql.significantTokens, List.map_cons, List.map_nil,
    token_nameLexeme]
  rfl

@[simp] theorem spelling_unqualified : (Token.qualified none name).spelling = [nameToken name] :=
  spelling_ident

@[simp] theorem spelling_qualified {schema : String} :
    (Token.qualified (some schema) name).spelling =
      [nameToken schema, .symbol .period, nameToken name] := by
  simp only [Token.spelling, Token.lexemes, Sql.significantTokens, List.map_cons, List.map_nil,
    token_nameLexeme]
  rfl

@[simp] theorem spelling_int {value : Int} :
    (Token.int value).spelling = [.number (toString value) false] := rfl

@[simp] theorem spelling_text {value : String} :
    (Token.text value).spelling = [.text .plain value] := rfl

@[simp] theorem spelling_boolean {value : Bool} :
    (Token.boolean value).spelling = [.word (booleanLiteral value) false] := rfl

@[simp] theorem spelling_date {day : String} :
    (Token.date day).spelling = [.word "DATE" false, .text .plain day] := rfl

@[simp] theorem spelling_param :
    (Token.param name).spelling = [.text .plain (Sql.Placeholder.sentinelMark ++ name)] := rfl

@[simp] theorem spelling_castTo {type : String} :
    (Token.castTo type).spelling = [.symbol .doubleColon, .word type false] := rfl

@[simp] theorem spelling_function :
    (Token.function name).spelling = [.word (Text.upper name) false] := rfl

theorem spelling_number {sql : String} (h : Sql.isNumeral sql = true) :
    (Token.raw sql).spelling = [.number sql false] := by
  have : sql ≠ "*" := by
    rintro rfl
    exact absurd h (by decide)
  simp only [Token.spelling, Token.lexemes, rawLexeme, if_neg this]
  rfl

/-- No written token is read as an opening bracket. -/
@[simp] theorem unbracketed_spelled : Sql.Token.symbol .leftBracket ∉ spelled ts := by
  simp only [spelled, List.mem_flatMap, not_exists, not_and]
  intro t _ h
  cases t with
  | mark m =>
      rw [spelling_mark] at h
      cases m <;> exact absurd h (by decide)
  | float value => simp [Token.spelling, Token.lexemes, Sql.significantTokens] at h
  | raw sql =>
      simp only [Token.spelling, Token.lexemes, rawLexeme] at h
      split at h <;> simp [Sql.significantTokens, symbolLexeme] at h
  | qualified schema name => cases schema <;> simp [nameToken] at h
  | _ => simp [nameToken] at h

/-- Groups with any separator that is read as a comma are read as items between commas. -/
theorem spelled_separated {separator : List Token} (h : spelled separator = [.symbol .comma])
    (groups : List (List Token)) :
    spelled (separated separator groups) = commaJoined (groups.map spelled) := by
  induction groups with
  | nil => rfl
  | cons group groups ih =>
      cases groups with
      | nil => rfl
      | cons next groups =>
          simp only [separated, spelled_append, h, ih, List.map_cons, commaJoined,
            List.append_assoc, List.singleton_append]

@[simp] theorem spelled_commaSeparated (groups : List (List Token)) :
    spelled (commaSeparated groups) = commaJoined (groups.map spelled) :=
  spelled_separated rfl groups

end ReportSql.Output
