import ReportSql.Proofs.AcceptedStatements
import ReportSql.Proofs.MaskedLexemes
import Mathlib.Data.List.DropRight

/-!
The text of an accepted statement. It is cut from the text as it was written, while the statement
was read from the masked text. The lexemes of both are the same around the statement, so that what
is cut off belongs to it in neither, unless a literal that masks a placeholder runs into what stands
next to it.
-/
namespace ReportSql.Sql

open Lexer
open Text (isBlank)

variable {c : Char}

/-! ### What fillers are read from -/

/-- A blank character is nothing but a blank. -/
theorem token_of_blank (hc : isBlank c = true) (s : List Char) :
    token (c :: s) = some (.blank, s) := by
  have blank : ∀ d, isBlank d = false → c ≠ d := by
    rintro d other rfl
    rw [other] at hc
    cases hc
  have quotes : c ∉ ['\'', '"', '$'] := by
    simp only [List.mem_cons, List.not_mem_nil, or_false, not_or]
    exact ⟨blank _ (by decide), blank _ (by decide), blank _ (by decide)⟩
  have noLetter : c ∉ ['b', 'B', 'n', 'N', 'e', 'E', 'x', 'X', 'u', 'U'] := fun mem =>
    blank c (letter_starts c mem).1 rfl
  have line : ¬ ['-', '-'] <+: c :: s := fun ⟨_, start⟩ =>
    blank '-' (by decide) (List.cons.inj start).1.symm
  have block : ¬ ['/', '*'] <+: c :: s := fun ⟨_, start⟩ =>
    blank '/' (by decide) (List.cons.inj start).1.symm
  rw [token_plain (letteredToken_eq_none noLetter) quotes line block, if_pos hc]

/-- What starts with the last letter of a placeholder is a word. -/
theorem token_s (s : List Char) : token ('s' :: s) = some (wordToken ('s' :: s)) := by
  rw [token_plain (letteredToken_eq_none (by decide)) (by decide) (by simp) (by simp)]
  rfl

end ReportSql.Sql

namespace ReportSql.Sql.Placeholder

open Lexer
open Text (Cuts)

variable {s : List Char} {l : Lexeme} {ls own before after : List Lexeme} {m : Mention}
  {ms more : List Piece}

/-! ### Placeholders and fillers -/

theorem mention?_of_spells (h : Spells m own) (rest : List Lexeme) :
    mention? (own ++ rest) = some (m, 5) := by
  obtain ⟨last, named⟩ := h
  simp [mention?, last, named]

/-- No placeholder starts with a filler. -/
theorem mention?_filler (lexes : Lexes s ls) (hl : l ∈ ls) (filler : l.token.isFiller = true)
    (rest : List Lexeme) : mention? (l :: rest) = none := by
  refine Option.eq_none_iff_forall_ne_some.mpr fun ⟨m, size⟩ found => ?_
  obtain ⟨-, own, after, split, -, spells⟩ := mention?_some found
  obtain ⟨first, five, rfl, source, -, operator⟩ := spells_first spells
  obtain ⟨rfl, -⟩ := List.cons.inj split
  obtain ⟨r, scanned⟩ := lexes_mem lexes hl
  by_cases alone : m.glued = []
  · rw [source, alone, List.nil_append, List.singleton_append, token_percent] at scanned
    obtain ⟨tail, -, -, -, own⟩ := extended_cases scanned
    rw [own] at filler
    split at filler <;> cases filler
  · obtain ⟨spelling, operator⟩ := operator alone
    rw [operator] at filler
    cases filler

theorem spells_last (h : Spells m own) : ∃ t, own.getLast? = some ⟨t, 's' :: m.tail⟩ := by
  obtain @⟨l, t, u, v, w, name, tail, last, named⟩ := h
  exact ⟨w, rfl⟩

/-- No placeholder goes on into fillers. -/
theorem mention?_before (lexes : Lexes s (ls ++ after))
    (ha : ∀ l ∈ after, l.token.isFiller = true) (h : mention? ls = none) :
    mention? (ls ++ after) = none := by
  refine Option.eq_none_iff_forall_ne_some.mpr fun ⟨m, size⟩ found => ?_
  obtain ⟨-, own, rest, split, -, spells⟩ := mention?_some found
  obtain ⟨shared, rfl, rfl⟩ | ⟨extra, rfl, -⟩ := List.append_eq_append_iff.mp split
  · obtain ⟨t, last⟩ := spells_last spells
    by_cases none : shared = []
    · rw [none, List.append_nil] at spells
      have alone := mention?_of_spells spells []
      rw [List.append_nil, h] at alone
      cases alone
    · rw [List.getLast?_append_of_ne_nil _ none] at last
      have mem := List.mem_append_left rest (List.mem_of_getLast? last)
      obtain ⟨r, scanned⟩ := lexes_mem lexes (List.mem_append_right ls mem)
      have filler := ha _ mem
      rw [List.cons_append, token_s] at scanned
      simp only [wordToken, Option.some.injEq, Prod.mk.injEq] at scanned
      obtain ⟨rfl, -⟩ := scanned
      cases filler
  · rw [mention?_of_spells spells] at h
    cases h

theorem cuts_before (cuts : Cuts mention? ls ms)
    (hb : ∀ l ∈ before, ∀ rest, mention? (l :: rest) = none) :
    Cuts mention? (before ++ ls) (before.map .plain ++ ms) := by
  induction before with
  | nil => exact cuts
  | cons l before ih =>
      exact .plain (hb l List.mem_cons_self _) (ih fun x hx => hb x (List.mem_cons_of_mem l hx))

theorem cuts_after (lexes : Lexes s (ls ++ after)) (cuts : Cuts mention? ls ms)
    (ha : ∀ l ∈ after, l.token.isFiller = true) :
    Cuts mention? (ls ++ after) (ms ++ after.map .plain) := by
  induction cuts generalizing s with
  | nil =>
      have alone := cuts_before .nil fun l hl rest => mention?_filler lexes hl (ha l hl) rest
      simpa using alone
  | plain none _ ih =>
      have first := mention?_before lexes ha none
      obtain ⟨r, -, -, -, next⟩ := lexes_cons lexes
      exact .plain first (ih next)
  | @found own ls m ms nonempty occurs _ ih =>
      rw [List.append_assoc] at lexes ⊢
      obtain ⟨r, -, next⟩ := lexes_append lexes
      have longer := fun rest => mention?_of_spells (spells_of_mention? occurs) rest
      have size : own.length = 5 := by simpa [longer ls, eq_comm] using occurs
      exact .found nonempty (by rw [longer, size]) (ih next)

/-! ### Literals of a part -/

theorem lexemes_plain (ls : List Lexeme) : (ls.map .plain).flatMap Piece.lexemes = ls := by
  induction ls with
  | nil => rfl
  | cons l ls ih =>
      rw [List.map_cons, List.flatMap_cons, ih]
      rfl

theorem isApart_right (h : isApart (more ++ ms) = true) : isApart ms = true := by
  induction more with
  | nil => exact h
  | cons piece more ih =>
      simp only [List.cons_append, isApart, Bool.and_eq_true] at h
      exact ih h.2

theorem startsSentinel_cons (piece : Piece) (rest rest' : List Piece) :
    startsSentinel (piece :: rest) = startsSentinel (piece :: rest') := by
  cases piece with
  | plain l => rfl
  | found m =>
      obtain ⟨glued, name, tail⟩ := m
      cases glued <;> rfl

theorem isClear_left {piece : Piece} (h : piece.isClear (ms ++ more) = true) :
    piece.isClear ms = true := by
  cases piece with
  | plain l =>
      simp only [Piece.isClear, Bool.and_eq_true, Bool.not_eq_true', Bool.and_eq_false_iff,
        List.flatMap_append] at h ⊢
      refine ⟨h.1.imp_right fun sentinel => ?_, h.2.imp_right fun quote => ?_⟩
      · cases ms with
        | nil => rfl
        | cons piece ms => exact (startsSentinel_cons piece ms _).trans sentinel
      · refine Bool.eq_false_iff.mpr fun opening => ?_
        have longer := (List.isPrefixOf_iff_prefix.mp opening).trans
          (List.prefix_append _ (more.flatMap Piece.chars))
        rw [List.isPrefixOf_iff_prefix.mpr longer] at quote
        cases quote
  | found m =>
      simp only [Piece.isClear, Bool.and_eq_true, bne_iff_ne, List.flatMap_append] at h ⊢
      refine ⟨h.1, fun quote => h.2 ?_⟩
      obtain ⟨rest, starts⟩ := List.head?_eq_some_iff.mp quote
      rw [starts]
      rfl

theorem isApart_left (h : isApart (ms ++ more) = true) : isApart ms = true := by
  induction ms with
  | nil => rfl
  | cons piece ms ih =>
      simp only [List.cons_append, isApart, Bool.and_eq_true] at h ⊢
      exact ⟨isClear_left h.1, ih h.2⟩

end ReportSql.Sql.Placeholder

namespace ReportSql.Text

/-! ### Trimmed text -/

theorem trimChars_eq_nil {s : List Char} (h : trimChars s = []) : ∀ c ∈ s, isBlank c = true := by
  simp only [trimChars, trimLeftChars, List.reverse_eq_nil_iff, List.dropWhile_eq_nil_iff,
    List.mem_reverse] at h
  rw [← List.dropWhile_eq_nil_iff]
  cases rest : s.dropWhile isBlank with
  | nil => rfl
  | cons c rest' =>
      have first := List.head?_dropWhile_not isBlank s
      rw [rest] at first h
      exact absurd (h c List.mem_cons_self) (by simpa using first)

end ReportSql.Text

namespace ReportSql.Gate

open Sql (Lexeme Lexes lex lexes_append lexes_cons lexes_left lexes_of_lexChars lexChars_of_lexes
  significantTokens statements? takeWhile_split)
open Sql.Placeholder (Piece cuts_after cuts_before cuts_pieces isApart isApart_left isApart_right
  lex_mask lexemes_plain mask mention?_filler pieces)
open Text (segments_eq_of_cuts)

variable {p : Policy} {a : Accepted} {text : String} {ls : List Lexeme}

/-! ### Lexemes around a statement -/

def isFiller (l : Lexeme) : Bool := l.token.isFiller

theorem trimLexemes_eq (ls : List Lexeme) :
    trimLexemes ls = (ls.dropWhile isFiller).rdropWhile isFiller := rfl

theorem trimLexemes_split (ls : List Lexeme) : ∃ before after,
    ls = before ++ (trimLexemes ls ++ after) ∧
      (∀ l ∈ before, l.token.isFiller = true) ∧ ∀ l ∈ after, l.token.isFiller = true := by
  obtain ⟨before, rest, rfl, stops, fillers, cut⟩ := takeWhile_split isFiller ls
  obtain ⟨after, core, back, ends, more, cut'⟩ := takeWhile_split isFiller rest.reverse
  have own : trimLexemes (before ++ rest) = core.reverse := by
    rw [trimLexemes_eq, (cut rest stops).2, List.rdropWhile, back, (cut' core ends).2]
  refine ⟨before, after.reverse, ?_, fillers, fun l hl => more l (List.mem_reverse.mp hl)⟩
  rw [own, ← List.reverse_append, ← back, List.reverse_reverse]

theorem trimLexemes_head {l : Lexeme} (h : (trimLexemes ls).head? = some l) :
    l.token.isFiller = false := by
  obtain ⟨rest, split⟩ := List.rdropWhile_prefix isFiller (ls.dropWhile isFiller)
  have first := List.head?_dropWhile_not isFiller ls
  rw [← split, ← trimLexemes_eq, List.head?_append, h] at first
  simpa [isFiller] using first

theorem trimLexemes_last {l : Lexeme} (h : (trimLexemes ls).getLast? = some l) :
    l.token.isFiller = false := by
  have last := List.head?_dropWhile_not isFiller (ls.dropWhile isFiller).reverse
  rw [trimLexemes_eq, List.rdropWhile, List.getLast?_reverse] at h
  rw [h] at last
  simpa [isFiller] using last

theorem trimLexemes_trimLexemes (ls : List Lexeme) :
    trimLexemes (trimLexemes ls) = trimLexemes ls := by
  have start : (trimLexemes ls).dropWhile isFiller = trimLexemes ls := by
    cases own : trimLexemes ls with
    | nil => rfl
    | cons l core =>
        have first : isFiller l = false := trimLexemes_head (by rw [own]; rfl)
        exact List.dropWhile_cons_of_neg (by simp [first])
  rw [trimLexemes_eq (trimLexemes ls), start]
  exact List.rdropWhile_idempotent isFiller _

theorem trimLexemes_kept (h : ∃ l ∈ ls, l.token.isFiller = false) :
    ∃ l ∈ trimLexemes ls, l.token.isFiller = false := by
  obtain ⟨l, mem, kept⟩ := h
  obtain ⟨before, after, split, first, last⟩ := trimLexemes_split ls
  rw [split, List.mem_append, List.mem_append] at mem
  obtain mem | mem | mem := mem
  · rw [first l mem] at kept
    cases kept
  · exact ⟨l, mem, kept⟩
  · rw [last l mem] at kept
    cases kept

/-! ### The trimmed text of a statement -/

section

variable (scanned : lex text = some ls) (kept : ∃ l ∈ ls, l.token.isFiller = false)

include scanned kept

theorem trimText_eq :
    trimText text = String.ofList ((trimLexemes ls).flatMap Lexeme.source) := by
  have some : ¬ (ls.all fun l => l.token.isFiller) = true := by simpa using kept
  rw [trimText, scanned]
  exact if_neg some

/-- The lexemes of a trimmed text are those of the text without the fillers around them. -/
theorem lex_trimText : lex (trimText text) = some (trimLexemes ls) := by
  obtain ⟨before, after, split, -⟩ := trimLexemes_split ls
  have lexes := lexes_of_lexChars scanned
  rw [split] at lexes
  obtain ⟨rest, -, more⟩ := lexes_append lexes
  rw [lex, trimText_eq scanned kept, String.toList_ofList]
  exact lexChars_of_lexes (lexes_left more)

theorem trimText_trimText : trimText (trimText text) = trimText text := by
  rw [trimText_eq (lex_trimText scanned kept) (trimLexemes_kept kept), trimLexemes_trimLexemes,
    trimText_eq scanned kept]

theorem trim_isEmpty : (Text.trim text).isEmpty = false := by
  refine Bool.eq_false_iff.mpr fun empty => ?_
  have blank := Text.trimChars_eq_nil (s := text.toList) (by
    simpa [Text.trim] using empty)
  obtain ⟨l, mem, kept⟩ := kept
  obtain ⟨before, after, rfl⟩ := List.append_of_mem mem
  obtain ⟨rest, chars, more⟩ := lexes_append (lexes_of_lexChars scanned)
  obtain ⟨last, rfl, nonempty, read, -⟩ := lexes_cons more
  obtain ⟨c, source, cons⟩ := List.exists_cons_of_ne_nil nonempty
  rw [cons, List.cons_append, Sql.token_of_blank (blank c (by simp [chars, cons]))] at read
  rw [← (Prod.mk.inj (Option.some.inj read)).1] at kept
  cases kept

/-- Where the literals that mask placeholders are cut off from what stands next to them, the
lexemes of the masked trimmed text are those of the masked text without some fillers around. -/
theorem lex_mask_trimText (apart : isApart (pieces ls) = true) :
    ∃ before core after, (∀ l ∈ before ++ after, l ∈ ls ∧ l.token.isFiller = true) ∧
      lex (mask text) = some (before ++ (core ++ after)) ∧
      lex (mask (trimText text)) = some core := by
  obtain ⟨before, after, split, first, last⟩ := trimLexemes_split ls
  have lexes := lexes_of_lexChars scanned
  have masked := lex_mask scanned apart
  have inside := lex_mask (lex_trimText scanned kept)
  generalize trimLexemes ls = core at split inside
  subst split
  obtain ⟨rest, -, more⟩ := lexes_append lexes
  have parts : pieces (before ++ (core ++ after)) =
      before.map .plain ++ (pieces core ++ after.map .plain) :=
    segments_eq_of_cuts (cuts_before (cuts_after more (cuts_pieces core) last) fun l hl =>
      mention?_filler lexes (List.mem_append_left _ hl) (first l hl))
  rw [parts] at apart masked
  refine ⟨before, (pieces core).flatMap Piece.lexemes, after, fun l hl => ?_, ?_, ?_⟩
  · obtain hl | hl := List.mem_append.mp hl
    · exact ⟨List.mem_append_left _ hl, first l hl⟩
    · exact ⟨List.mem_append_right _ (List.mem_append_right _ hl), last l hl⟩
  · rw [masked, List.flatMap_append, List.flatMap_append, lexemes_plain, lexemes_plain]
  · exact inside (isApart_left (isApart_right apart))

end

/-! ### The check of a trimmed text -/

theorem significantTokens_fillers (fillers : ∀ l ∈ ls, l.token.isFiller = true)
    (single : ∀ l ∈ ls, l.token ≠ .symbol .semicolon) : significantTokens ls = [] := by
  have blank : ∀ t : Sql.Token, t.isFiller = true → t ≠ .symbol .semicolon →
      (t != .blank && t != .comment) = false := by
    intro t filler other
    unfold Sql.Token.isFiller at filler
    split at filler
    · rfl
    · rfl
    · exact absurd rfl other
    · cases filler
  simp only [significantTokens, List.filter_eq_nil_iff, List.mem_map]
  rintro _ ⟨l, mem, rfl⟩
  exact Bool.eq_false_iff.mp (blank _ (fillers l mem) (single l mem))

/-- A text without semicolons is judged as its trimmed text is, if the literals that mask
placeholders are cut off from what stands next to them. -/
theorem check_trimText (scanned : lex text = some ls)
    (kept : ∃ l ∈ ls, l.token.isFiller = false) (apart : isApart (pieces ls) = true)
    (single : ∀ l ∈ ls, l.token ≠ .symbol .semicolon) :
    check p (trimText text) = check p text := by
  obtain ⟨before, core, after, fillers, whole, inside⟩ := lex_mask_trimText scanned kept apart
  have none : ∀ part, (∀ l ∈ part, l ∈ before ++ after) → significantTokens part = [] :=
    fun part own => significantTokens_fillers (fun l hl => (fillers l (own l hl)).2)
      fun l hl => single l (fillers l (own l hl)).1
  have tokens : significantTokens (before ++ (core ++ after)) = significantTokens core := by
    have append : ∀ x y, significantTokens (x ++ y) = significantTokens x ++ significantTokens y :=
      fun x y => by simp [significantTokens]
    rw [append, append, none before fun l => List.mem_append_left _,
      none after fun l => List.mem_append_right _, List.nil_append, List.append_nil]
  have same : statements? (mask (trimText text)) = statements? (mask text) := by
    simp only [statements?, whole, inside, Option.bind_eq_bind, Option.bind_some, tokens]
  have trimmed := trim_isEmpty (lex_trimText scanned kept) (trimLexemes_kept kept)
  rw [check, check, same, trimText_trimText scanned kept, trimmed, trim_isEmpty scanned kept]

/-- There is more than blanks and comments in an accepted text. -/
theorem kept_of_accepted (accepted : check p text = .ok a) (scanned : lex text = some ls)
    (apart : isApart (pieces ls) = true) (single : ∀ l ∈ ls, l.token ≠ .symbol .semicolon) :
    ∃ l ∈ ls, l.token.isFiller = false := by
  refine Classical.byContradiction fun none => ?_
  have fillers : ∀ l ∈ ls, l.token.isFiller = true := by simpa using none
  have parts : pieces (ls ++ []) = ls.map .plain ++ [] :=
    segments_eq_of_cuts (cuts_before .nil fun l hl =>
      mention?_filler (lexes_of_lexChars scanned) hl (fillers l hl))
  rw [List.append_nil, List.append_nil] at parts
  have masked := lex_mask scanned apart
  rw [parts, lexemes_plain] at masked
  have empty : statements? (mask text) = some [] := by
    simp only [statements?, masked, Option.bind_eq_bind, Option.bind_some,
      significantTokens_fillers fillers single]
    rfl
  rw [(check_ok accepted).1] at empty
  cases empty

/-- What was accepted without semicolons is accepted again as the same statement, if the literals
that mask placeholders are cut off from what stands next to them. -/
theorem check_accepted (accepted : check p text = .ok a) (scanned : lex text = some ls)
    (apart : isApart (pieces ls) = true) (single : ∀ l ∈ ls, l.token ≠ .symbol .semicolon) :
    check p a.text = .ok a := by
  have kept := kept_of_accepted accepted scanned apart single
  have text_eq : a.text = trimText text := by
    obtain ⟨-, -, -, -, rfl⟩ := check_inv accepted
    rfl
  rw [text_eq, check_trimText scanned kept apart single, accepted]

/-- Comments around a statement, with an operator that a placeholder touches inside of it. -/
theorem check_accepted_comments :
    ∃ a, check .default "-- revenue\nSELECT 1 >=%(x)s /* %(y)s */" = .ok a ∧
      a.text = "SELECT 1 >=%(x)s" ∧ check .default a.text = .ok a := by
  obtain ⟨a, accepted, shown⟩ := exists_accepted .default
    "-- revenue\nSELECT 1 >=%(x)s /* %(y)s */"
    (f := fun a => a.text == "SELECT 1 >=%(x)s") (by decide +kernel)
  have readable : (lex "-- revenue\nSELECT 1 >=%(x)s /* %(y)s */").any (fun ls =>
      isApart (pieces ls) && ls.all fun l => l.token != .symbol .semicolon) = true := by
    decide +kernel
  obtain ⟨ls, scanned, clear⟩ := (Option.any_eq_true _ _).mp readable
  rw [Bool.and_eq_true, List.all_eq_true] at clear
  refine ⟨a, accepted, beq_iff_eq.mp shown, check_accepted accepted scanned clear.1 fun l hl => ?_⟩
  simpa using clear.2 l hl

/-- The quote of a masked placeholder closes a literal early, so that what was a part of the
statement is a comment in the text and is cut off. -/
theorem trimmed_text_refused :
    (check .default "SELECT e%(x)s'b\\' -- '").toOption.map Accepted.text =
        some "SELECT e%(x)s'b\\'" ∧
      (check .default "SELECT e%(x)s'b\\'").toOption.isNone = true := by
  decide +kernel

/-- A limit is cut off together with the comment that it stands in. -/
theorem trimmed_text_unlimited :
    (check .default "SELECT e%(x)s'\\', ' -- '/*\nLIMIT 5 --*/").toOption.map
        (fun a => (a.text, a.hasLimit)) = some ("SELECT e%(x)s'\\', ' -- '", true) ∧
      (check .default "SELECT e%(x)s'\\', ' -- '").toOption.map Accepted.hasLimit =
        some false := by
  decide +kernel

end ReportSql.Gate
