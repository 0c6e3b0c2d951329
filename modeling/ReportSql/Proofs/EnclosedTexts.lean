import ReportSql.Proofs.Lookahead
import ReportSql.Proofs.RereadTrees

/-!
Names and literals as they are written. Whatever a literal holds, it is read as one token whose
value is the text, wherever no quote follows; and a name is read as one token that folds to the name
before all that may follow a name. So nothing in them is read as anything else.
-/
namespace ReportSql.Text

/-- The code points of some ranges. -/
def codesIn (ranges : List (Nat × Nat)) : List Nat :=
  ranges.flatMap fun r => List.range' r.1 (r.2 + 1 - r.1)

theorem mem_codesIn {ranges : List (Nat × Nat)} {n : Nat} (h : inRanges ranges n = true) :
    n ∈ codesIn ranges := by
  induction ranges with
  | nil => cases h
  | cons r rest ih =>
      rw [inRanges] at h
      split at h
      · cases h
      · next low =>
        simp only [Bool.or_eq_true, decide_eq_true_eq] at h
        rw [codesIn, List.flatMap_cons, List.mem_append]
        apply h.imp _ ih
        intro high
        rw [List.mem_range'_1]
        omega

/-- What holds of the blanks can be checked one by one. -/
theorem blank_induction {p : Char → Prop} (h : ∀ n ∈ codesIn blanks.ranges, p (Char.ofNat n))
    {c : Char} (hc : isBlank c = true) : p c := by
  have own := h c.toNat (mem_codesIn hc)
  rwa [Char.ofNat_toNat] at own

end ReportSql.Text

namespace ReportSql.Output

open Sql (EndsWord IsWordEnd Lexeme lex lexChars lexChars_iff
  lexes_step textLexeme token_quoted token_text token_word)
open Sql.Lexer (isNamePart token)
open Sql.Parse (wordIdent)
open Text (isBlank)
open Tree (foldedName nameIdent wordIdent_name foldedName_nameIdent)

variable {run rest : List Char} {t : Sql.Token}

/-! ### One lexeme before a text -/

/-- Where a text starts with a token, its lexemes are that token and those of the rest. -/
theorem lexChars_append (nonempty : run ≠ []) (scanned : token (run ++ rest) = some (t, rest)) :
    lexChars (run ++ rest) = (lexChars rest).map (⟨t, run⟩ :: ·) := by
  cases own : lexChars rest with
  | some ls => exact lexChars_iff.mpr (.cons nonempty scanned (lexChars_iff.mp own))
  | none =>
      refine Option.eq_none_iff_forall_ne_some.mpr fun ls whole => ?_
      obtain ⟨more, -, lexes⟩ := lexes_step (lexChars_iff.mp whole) nonempty scanned
      rw [lexChars_iff.mpr lexes] at own
      cases own

/-! ### Literals -/

theorem token_textLiteral (s : String) (h : rest.head? ≠ some '\'') :
    token ((textLiteral s).toList ++ rest) = some (.text .plain s, rest) := by
  rw [← textLexeme_source]
  exact token_text h

/-! ### Names -/

/-- Whether a text ends at once, or goes on with a blank, a period, a comma or a parenthesis. -/
def EndsName (s : List Char) : Prop :=
  ∀ c ∈ s.head?, isBlank c = true ∨ c ∈ ['.', ',', '(', ')']

theorem endsWord_of_endsName (h : EndsName rest) : EndsWord rest := by
  intro c hc
  have blanks : ∀ n ∈ Text.codesIn Text.blanks.ranges, IsWordEnd (Char.ofNat n) := by decide +kernel
  have marks : ∀ m ∈ ['.', ',', '(', ')'], IsWordEnd m :=
    List.all_iff_forall_prop.mp (by decide +kernel)
  exact (h c hc).elim (Text.blank_induction blanks) (marks c)

theorem token_identifier (name : String) (h : EndsName rest) :
    token ((identifier name).toList ++ rest) = some (nameToken name, rest) := by
  have ends := endsWord_of_endsName h
  rw [← nameLexeme_source, nameLexeme, nameToken]
  split
  · next bare =>
    rw [bare]
    exact token_word (bareName_plain bare) ends
  · next quoted =>
    have noQuote : rest.head? ≠ some '"' := fun quote => (ends _ quote).2 (by simp)
    simpa [quoted] using token_quoted noQuote

/-- Neither a literal nor a name can be left by what it holds: each is read as one token of its own,
and what follows is read as if it stood alone. -/
theorem written_stays_enclosed :
    (∀ s rest : String, rest.toList.head? ≠ some '\'' →
      token (textLiteral s ++ rest).toList = some (.text .plain s, rest.toList) ∧
      lex (textLiteral s ++ rest) =
        (lex rest).map (⟨.text .plain s, (textLiteral s).toList⟩ :: ·)) ∧
    ∀ name : String, ∃ word quoted, foldedName (wordIdent word quoted) = name ∧
      ∀ rest : String, EndsName rest.toList →
        token (identifier name ++ rest).toList = some (.word word quoted, rest.toList) ∧
        lex (identifier name ++ rest) =
          (lex rest).map (⟨.word word quoted, (identifier name).toList⟩ :: ·) := by
  constructor
  · intro s rest h
    have scanned := token_textLiteral s h
    have nonempty : (textLiteral s).toList ≠ [] := by simp [← textLexeme_source, textLexeme]
    rw [lex, String.toList_append]
    exact ⟨scanned, lexChars_append nonempty scanned⟩
  · intro name
    refine ⟨name, !isWrittenBare name, ?_, fun rest h => ?_⟩
    · rw [wordIdent_name, foldedName_nameIdent]
    · have scanned := token_identifier name h
      have nonempty : (identifier name).toList ≠ [] := by
        rw [← nameLexeme_source]
        obtain ⟨c, tail, cons, -⟩ := nameLexeme_head name
        simp [cons]
      rw [lex, String.toList_append]
      exact ⟨scanned, lexChars_append nonempty scanned⟩

theorem written_stays_enclosed_quotes :
    token (textLiteral "it's ''" ++ ")").toList = some (.text .plain "it's ''", [')']) ∧
      lex (textLiteral "it's ''" ++ ")") = (lex ")").map
        (⟨.text .plain "it's ''", (textLiteral "it's ''").toList⟩ :: ·) :=
  written_stays_enclosed.1 "it's ''" ")" (by decide)

end ReportSql.Output
