import ReportSql.Proofs.MaskedTexts

/-!
The lexemes of masked texts. Masking puts a literal where a placeholder stood, so that the lexemes
of the masked text are those of the text with literals for its placeholders, unless the quotes of
such a literal run into what stands next to it. A letter that a quote belongs to, another literal
or another placeholder must not touch it; nothing in the masking of a text sees to that.
-/
namespace ReportSql.Sql

open Lexer
open Text (isBlank)

variable {s r source glued : List Char} {c : Char} {t : Token} {text : String}

/-! ### Parentheses and literals -/

theorem token_paren (s : List Char) : token ('(' :: s) = some (.symbol .leftParen, s) ∧
    token (')' :: s) = some (.symbol .rightParen, s) :=
  ⟨token_symbol (by simp), token_symbol (by simp)⟩

/-- A literal ends where no further quote follows. -/
theorem token_literal {s : String} (hr : r.head? ≠ some '\'') :
    token ((textLexeme s).source ++ r) = some (.text .plain s, r) := by
  have body := @quotedBody_doubled '\'' s.toList r hr
  simp only [textLexeme, List.append_assoc, List.cons_append, List.nil_append]
  unfold token
  rw [letteredToken_eq_none (by decide)]
  simp [quotedToken, body]

/-! ### Operators that a percent sign ends -/

theorem token_percent (s : List Char) : token ('%' :: s) = extended .percent s := by
  rw [token_symbol (by simp), symbolToken_percent]
  cases read : extended .percent s with
  | none => exact absurd read (extended_ne_none _ _)
  | some scanned => rfl

/-- What an operator starts with starts nothing else. -/
structure StartsOperator (c : Char) (s : List Char) : Prop where
  lettered : c ∉ ['b', 'B', 'n', 'N', 'e', 'E', 'x', 'X', 'u', 'U']
  quotes : c ∉ ['\'', '"', '$']
  line : ¬ ['-', '-'] <+: c :: s
  block : ¬ ['/', '*'] <+: c :: s
  blank : isBlank c = false
  number : (c.isDigit || c == '.') = false
  word : isNameStart c = false

theorem StartsOperator.token_eq (h : StartsOperator c s) :
    token (c :: s) = match symbolToken (c :: s) with
      | some scanned => some scanned
      | none => some (.stray c, s) := by
  rw [token_plain (letteredToken_eq_none h.lettered) h.quotes h.line h.block, h.blank, h.number,
    h.word]
  rfl

theorem dollarToken_operator : dollarToken s ≠ some (.operator text, r) := by
  intro h
  unfold dollarToken at h
  dsimp only at h
  split at h
  · obtain ⟨_, -, same⟩ := Option.map_eq_some_iff.mp h
    cases same
  · split at h
    · obtain ⟨_, -, same⟩ := Option.map_eq_some_iff.mp h
      cases same
    · cases h

theorem numberToken_operator : numberToken s ≠ (.operator text, r) := by
  intro h
  unfold numberToken at h
  dsimp only at h
  split at h
  · cases h
  · split at h
    · cases h
    · split at h <;> cases h

theorem operator_starts (h : token (c :: s) = some (.operator text, r)) :
    StartsOperator c s ∧ symbolToken (c :: s) = some (.operator text, r) := by
  have whole := h
  unfold token at h
  split at h
  · next scanned lettered =>
    obtain ⟨opening, form, q, scan, after, -, cut, -, -, always⟩ := letteredToken_cases lettered
    rw [cut, always, Option.some.injEq] at lettered
    subst lettered
    obtain ⟨body, -, same⟩ := of_quotedToken h
    cases same
  next lettered =>
  split at h
  · next none => cases none
  · cases h
  · obtain ⟨_, -, same⟩ := Option.map_eq_some_iff.mp h
    cases same
  · obtain ⟨_, -, same⟩ := of_quotedToken h
    cases same
  · obtain ⟨_, -, same⟩ := Option.map_eq_some_iff.mp h
    cases same
  · exact absurd h dollarToken_operator
  next d after line block single double dollar start =>
  cases start
  obtain ⟨noQuote, noLine, noBlock⟩ := plain_start line block single double dollar
  rw [token_plain lettered noQuote noLine noBlock] at whole
  split at whole
  · cases whole
  next blank =>
  split at whole
  · exact absurd (Option.some.inj whole) numberToken_operator
  next number =>
  split at whole
  · cases whole
  next word =>
  refine ⟨⟨fun mem => word (letter_starts c mem).2.2, noQuote, noLine, noBlock,
    by simpa using blank, Bool.eq_false_iff.mpr number, by simpa using word⟩, ?_⟩
  split at whole
  · next symbol => rw [symbol, whole]
  · cases whole

/-- An operator is made of operator characters only. -/
theorem operator_chars (h : token (source ++ r) = some (.operator text, r)) :
    ∀ c ∈ source, isOperatorChar c = true := by
  cases whole : source ++ r with
  | nil =>
      rw [whole] at h
      cases h
  | cons c s =>
      rw [whole] at h
      obtain ⟨run, -, ⟨-, sym, other, -⟩ | ⟨sym, tail, cut, operator, -⟩⟩ :=
        symbolToken_cases (operator_starts h).2
      · cases other
      · rw [← whole, ← List.append_assoc] at cut
        rw [List.append_cancel_right cut]
        exact fun d hd => (List.mem_append.mp hd).elim (operator.ofRun d) (operator.ofTail d)

/-- What is left of an operator without the percent sign at its end, before a quote or where the
text ends. -/
theorem operator_cut (h : token (glued ++ '%' :: r) = some (.operator text, r)) (hn : glued ≠ []) :
    ∃ t, ∀ r', (∀ c ∈ r'.head?, c = '\'') → token (glued ++ r') = some (t, r') := by
  obtain ⟨c, glued, rfl⟩ := List.exists_cons_of_ne_nil hn
  rw [List.cons_append] at h
  obtain ⟨starts, symbol⟩ := operator_starts h
  obtain ⟨run, nonempty, ⟨-, sym, other, -⟩ | ⟨sym, tail, cut, operator, longer⟩⟩ :=
    symbolToken_cases symbol
  · cases other
  have whole : c :: glued ++ ['%'] = run ++ tail :=
    List.append_cancel_right (show c :: glued ++ ['%'] ++ r = run ++ tail ++ r by simpa using cut)
  obtain rfl | ⟨tail', last, rfl⟩ := List.eq_nil_or_concat tail
  · cases longer
  rw [List.concat_eq_append] at operator
  rw [List.concat_eq_append, ← List.append_assoc] at whole
  obtain ⟨joined, only⟩ := List.append_inj' whole rfl
  cases only
  refine ⟨if tail' = [] then .symbol sym else .operator (sym.text ++ String.ofList tail'),
    fun r' quote => ?_⟩
  have ends : EndsOperator r' := by
    cases r' with
    | nil => rfl
    | cons d r' =>
        cases quote d rfl
        rfl
  have read : symbolToken (c :: glued ++ r') = extended sym (tail' ++ r') := by
    rw [joined, List.append_assoc]
    exact operator.again tail' r' (List.prefix_append _ _) ends
  have like : GoesOnLike ('%' :: r) r' := fun d hd => .inl (quote d hd)
  have again : StartsOperator c (glued ++ r') := { starts with
    line := like.not_prefix (by decide) (List.cons_ne_nil c glued) starts.line
    block := like.not_prefix (by decide) (List.cons_ne_nil c glued) starts.block }
  rw [List.cons_append] at read ⊢
  have ofTail : ∀ d ∈ tail', isOperatorChar d = true := fun d hd =>
    operator.ofTail d (List.mem_append_left _ hd)
  rw [again.token_eq, read, extended_eq ofTail ends]

end ReportSql.Sql

namespace ReportSql.Sql.Placeholder

open Lexer
open Text (Cuts Segment cuts_segments segments segments_eq_of_cuts)

/-! ### Placeholders among lexemes -/

/-- A placeholder among lexemes, with what stands in its lexemes besides it: the operator
characters in front of the percent sign and the characters after the `s`. -/
structure Mention where
  glued : List Char
  name : String
  tail : List Char
  deriving DecidableEq, Repr

/-- A placeholder that starts with the last character of a lexeme. -/
def mention? : List Lexeme → Option (Mention × Nat)
  | l :: ⟨_, ['(']⟩ :: w :: ⟨_, [')']⟩ :: ⟨_, 's' :: tail⟩ :: _ =>
    if (Lexeme.places l).getLast? = some ('%', true) ∧ isName (String.ofList w.source) = true then
      some (⟨l.source.dropLast, String.ofList w.source, tail⟩, 5)
    else none
  | _ => none

/-- A placeholder among lexemes, or a lexeme that belongs to none. -/
abbrev Piece := Segment Mention Lexeme

def pieces (ls : List Lexeme) : List Piece := segments mention? ls

/-- The characters of a piece in a masked text. -/
def Piece.chars : Piece → List Char
  | .plain l => l.source
  | .found m => m.glued ++ (sentinel m.name).toList ++ m.tail

/-- The literal that masks a placeholder. -/
def sentinelLexeme (name : String) : Lexeme := textLexeme (sentinelMark ++ name)

/-- A piece with its placeholder replaced by a literal. -/
def Piece.lexemes : Piece → List Lexeme
  | .plain l => [l]
  | .found m => (lexChars m.glued).getD [] ++ sentinelLexeme m.name :: (lexChars m.tail).getD []

def startsSentinel : List Piece → Bool
  | .found ⟨[], _, _⟩ :: _ => true
  | _ => false

/-- Whether no literal that masks a placeholder takes anything from a piece and what follows it. -/
def Piece.isClear (rest : List Piece) : Piece → Bool
  | .plain l => !(takesQuote l.source && startsSentinel rest) &&
    !([['u'], ['U']].contains l.source && ['&', '\''].isPrefixOf (rest.flatMap Piece.chars))
  | .found m => m.tail.isEmpty && (rest.flatMap Piece.chars).head? != some '\''

/-- Whether the literals that mask placeholders are cut off from what stands next to them. -/
def isApart : List Piece → Bool
  | [] => true
  | piece :: rest => piece.isClear rest && isApart rest

variable {s r : List Char} {l : Lexeme} {ls : List Lexeme} {m : Mention} {size : Nat}
  {ps : List Place} {ms : List Piece} {segs : List (Segment String Place)}

/-- The lexemes that a placeholder takes a part of. -/
inductive Spells : Mention → List Lexeme → Prop where
  | intro {l t u v w name tail} : (Lexeme.places l).getLast? = some ('%', true) →
      isName name = true → Spells ⟨l.source.dropLast, name, tail⟩
        [l, ⟨t, ['(']⟩, ⟨u, name.toList⟩, ⟨v, [')']⟩, ⟨w, 's' :: tail⟩]

theorem mention?_some (h : mention? ls = some (m, size)) :
    size = 5 ∧ ∃ own rest, ls = own ++ rest ∧ own.length = 5 ∧ Spells m own := by
  unfold mention? at h
  split at h
  · next l t w v x tail rest =>
    split at h
    · next found =>
      cases h
      have spells := @Spells.intro l t w.token v x _ tail found.1 found.2
      rw [String.toList_ofList] at spells
      exact ⟨rfl, _, rest, rfl, rfl, spells⟩
    · cases h
  · cases h

theorem spells_of_mention? {own : List Lexeme} (h : mention? (own ++ ls) = some (m, own.length)) :
    Spells m own := by
  obtain ⟨size, own', rest, split, length, spells⟩ := mention?_some h
  obtain ⟨rfl, rfl⟩ := List.append_inj split (size.trans length.symm)
  exact spells

theorem cuts_pieces (ls : List Lexeme) : Cuts mention? ls (pieces ls) := by
  refine cuts_segments (fun ls m size h => ?_) ls
  obtain ⟨rfl, own, rest, rfl, length, -⟩ := mention?_some h
  simp [length]

/-- A lexeme in which a placeholder starts ends with the percent sign. -/
theorem source_of_last (h : (Lexeme.places l).getLast? = some ('%', true)) :
    ∃ before, Lexeme.places l = before ++ [('%', true)] ∧
      before.map Prod.fst = l.source.dropLast ∧ l.source = l.source.dropLast ++ ['%'] := by
  obtain ⟨before, split⟩ := List.getLast?_eq_some_iff.mp h
  have chars := Output.map_fst_places l
  rw [split, List.map_append] at chars
  refine ⟨before, split, ?_, ?_⟩
  · rw [← chars]
    simp
  · rw [← chars]
    simp

theorem places_operator {text : String} (h : l.token = .operator text) :
    Lexeme.places l = l.source.map (·, true) := by
  obtain ⟨t, source⟩ := l
  cases h
  rfl

theorem places_other {c : Char} {source : List Char} (h : ∀ text, l.token ≠ .operator text)
    (hs : l.source = c :: source) : Lexeme.places l = (c, true) :: source.map (·, false) := by
  obtain ⟨t, own⟩ := l
  cases hs
  unfold Lexeme.places
  split <;> simp_all

theorem placeholderAt?_next {x y : Place} (h : y.1 ≠ '(') :
    placeholderAt? (x :: y :: ps) = none := by
  obtain ⟨c, start⟩ := x
  by_cases percent : c ≠ '%' ∨ start = false
  · exact Output.placeholderAt?_none percent
  · simp only [not_or, Decidable.not_not, Bool.not_eq_false] at percent
    obtain ⟨rfl, rfl⟩ := percent
    simp [placeholderAt?, nameBetween, List.isPrefixOf, h.symm]

/-- In a lexeme with further characters no placeholder starts. -/
theorem placeholderAt?_inside {x y : Place} {before after : List Place}
    (h : token (l.source ++ r) = some (l.token, r))
    (split : Lexeme.places l = before ++ x :: y :: after) :
    placeholderAt? (x :: y :: ps) = none := by
  by_cases operator : ∃ text, l.token = .operator text
  · obtain ⟨text, operator⟩ := operator
    rw [operator] at h
    rw [places_operator operator] at split
    have mem : y ∈ l.source.map (·, true) := by simp [split]
    obtain ⟨c, inside, rfl⟩ := List.mem_map.mp mem
    refine placeholderAt?_next ?_
    rintro rfl
    exact absurd (operator_chars h _ inside) (by decide)
  · have other : ∀ text, l.token ≠ .operator text := fun text same => operator ⟨text, same⟩
    obtain ⟨x, start⟩ := x
    refine Output.placeholderAt?_none ?_
    cases source : l.source with
    | nil =>
        have chars := Output.map_fst_places l
        rw [split, source] at chars
        simp at chars
    | cons c more =>
        rw [places_other other source] at split
        rw [source] at h
        cases before with
        | cons p before =>
            right
            have mem : (x, start) ∈ more.map (·, false) := by
              rw [(List.cons.inj split).2]
              simp
            obtain ⟨d, -, same⟩ := List.mem_map.mp mem
            exact (Prod.mk.inj same).2.symm
        | nil =>
            left
            rintro rfl
            obtain ⟨first, rest⟩ := List.cons.inj split
            cases first
            obtain ⟨tail, cut, -, -, own⟩ :=
              extended_cases ((token_percent (more ++ r)).symm.trans h)
            obtain rfl := List.append_cancel_right cut
            cases more with
            | nil => cases rest
            | cons d more => exact other _ own

/-! ### Places of lexemes -/

theorem placeholderAt?_text {w : List Place} {name : String} (hn : isName name = true)
    (hw : w.map Prod.fst = (text name).toList) (first : w.head? = some ('%', true)) :
    placeholderAt? (w ++ ps) = some (name, w.length) := by
  obtain ⟨more, rfl⟩ := List.head?_eq_some_iff.mp first
  have length := congrArg List.length hw
  rw [List.length_map, text_chars] at length
  rw [length, List.cons_append, placeholderAt?, ← List.cons_append, List.map_append, hw, text_chars]
  refine nameBetween_name hn ?_
  rintro _ ⟨⟩
  decide

/-- Where a placeholder starts with the last character of a lexeme, the lexemes after it are its. -/
theorem mention?_of_chars {name : String} {more : List Char} (hn : isName name = true)
    (last : (Lexeme.places l).getLast? = some ('%', true))
    (h : Lexes ('(' :: (name.toList ++ ')' :: 's' :: more)) ls) : mention? (l :: ls) ≠ none := by
  have opened : Lexes (['('] ++ (name.toList ++ ([')'] ++ 's' :: more))) ls := h
  obtain ⟨ls, rfl, named⟩ := lexes_step opened nofun (token_paren _).1
  have breaksName : StartsIn breaks ([')'] ++ 's' :: more) := by
    rintro _ ⟨⟩
    decide
  obtain ⟨c, tail, cons, -⟩ := isName_cons hn
  obtain ⟨ls, rfl, closed⟩ := lexes_step named (by simp [cons])
    (token_word hn (endsWord_of_breaks breaksName))
  obtain ⟨ls, rfl, ended⟩ := lexes_step closed nofun (token_paren _).2
  cases ls with
  | nil => cases lexes_nil ended
  | cons own ls =>
      obtain ⟨rest, cut, nonempty, -⟩ := lexes_cons ended
      obtain ⟨t, source⟩ := own
      obtain ⟨d, source, rfl⟩ := List.exists_cons_of_ne_nil nonempty
      cases (List.cons.inj cut).1
      simp [mention?, last, hn]

theorem cuts_quiet {p : List Place} (h : Cuts placeholderAt? ps segs)
    (quiet : ∀ before x after, p = before ++ x :: after →
      placeholderAt? (x :: (after ++ ps)) = none) :
    Cuts placeholderAt? (p ++ ps) (p.map .plain ++ segs) := by
  induction p with
  | nil => exact h
  | cons x p ih =>
      exact .plain (quiet [] x p rfl) (ih fun before y after split =>
        quiet (x :: before) y after (congrArg _ split))

theorem write_plain (p : List Place) (f : String → String) :
    (p.map .plain).flatMap (write f) = p.map Prod.fst := by
  induction p with
  | nil => rfl
  | cons x p ih => rw [List.map_cons, List.flatMap_cons, ih]; rfl

theorem map_fst_flatMap (lexes : Lexes s ls) : (ls.flatMap Lexeme.places).map Prod.fst = s := by
  rw [List.map_flatMap, ← Output.source_of_lexes lexes]
  exact congrArg (ls.flatMap ·) (funext Output.map_fst_places)

theorem placeholderAt?_last {x : Place} (last : (Lexeme.places l).getLast? = some x)
    (more : Lexes r ls) (alone : mention? (l :: ls) = none) :
    placeholderAt? (x :: ls.flatMap Lexeme.places) = none := by
  refine Option.eq_none_iff_forall_ne_some.mpr fun ⟨name, size⟩ found => ?_
  obtain ⟨named, rest, chars, -⟩ := placeholderAt?_some found
  have first : x = ('%', true) := by
    unfold placeholderAt? at found
    split at found
    · next start => exact (List.cons.inj start).1
    · cases found
  rw [List.map_cons, map_fst_flatMap more, text_chars] at chars
  have cut : r = '(' :: (name.toList ++ ')' :: 's' :: rest) := by
    simpa using (List.cons.inj chars).2
  exact mention?_of_chars named (first ▸ last) (cut ▸ more) alone

/-- The places of the lexemes that a placeholder takes a part of. -/
theorem spells_places {own : List Lexeme} (h : Spells m own) (lexes : Lexes s (own ++ ls)) :
    ∃ before placed, before.map Prod.fst = m.glued ∧ placed.map Prod.fst = (text m.name).toList ∧
      placed.head? = some ('%', true) ∧
      own.flatMap Lexeme.places = before ++ (placed ++ m.tail.map (·, false)) ∧
      ∀ ps first x after, before = first ++ x :: after →
        placeholderAt? (x :: (after ++ (placed ++ ps))) = none := by
  obtain @⟨l, t, u, v, w, name, tail, last, named⟩ := h
  obtain ⟨before, split, chars, whole⟩ := source_of_last last
  obtain ⟨r, rfl, -, scanned, -⟩ := lexes_cons lexes
  have word : Lexeme.places ⟨w, 's' :: tail⟩ = ('s', true) :: tail.map (·, false) := by
    refine places_other (fun spelling operator => ?_) rfl
    obtain ⟨rest, read⟩ := lexes_mem (l := ⟨w, 's' :: tail⟩) lexes (by simp)
    simp only at operator
    rw [operator] at read
    exact absurd (operator_chars read 's' (by simp)) (by decide)
  refine ⟨before, ('%', true) ::
    ([⟨t, ['(']⟩, ⟨u, name.toList⟩, ⟨v, [')']⟩].flatMap Lexeme.places ++ [('s', true)]),
    chars, ?_, rfl, by simp [split, word], ?_⟩
  · simp [Output.map_fst_places, text_chars]
  · rintro ps first x after rfl
    cases after with
    | nil => exact placeholderAt?_inside scanned (by simpa using split)
    | cons y after => exact placeholderAt?_inside scanned (by simpa using split)

/-- The placeholders that are found in the places of lexemes are those among the lexemes. -/
theorem cuts_places (lexes : Lexes s ls) (h : Cuts mention? ls ms) :
    ∃ segs, Cuts placeholderAt? (ls.flatMap Lexeme.places) segs ∧
      segs.flatMap (write sentinel) = ms.flatMap Piece.chars := by
  induction h generalizing s with
  | nil => exact ⟨[], .nil, rfl⟩
  | @plain l ls ms alone _ ih =>
      obtain ⟨r, rfl, -, scanned, more⟩ := lexes_cons lexes
      obtain ⟨segs, cuts, written⟩ := ih more
      refine ⟨(Lexeme.places l).map .plain ++ segs,
        cuts_quiet cuts fun before x after split => ?_, ?_⟩
      · cases after with
        | cons y after => exact placeholderAt?_inside scanned split
        | nil => exact placeholderAt?_last (by simp [split]) more alone
      · rw [List.flatMap_append, write_plain, written, Output.map_fst_places]
        rfl
  | @found taken ls m ms _ occurs _ ih =>
      have spells := spells_of_mention? occurs
      obtain ⟨r, -, more⟩ := lexes_append lexes
      obtain ⟨segs, cuts, written⟩ := ih more
      obtain ⟨before, placed, glued, chars, first, places, quiet⟩ := spells_places spells lexes
      have named : isName m.name = true := by
        cases spells
        assumption
      have tail := cuts_quiet (p := m.tail.map (·, false)) cuts fun before x after split => by
        have inside : x ∈ m.tail.map (·, false) := by simp [split]
        obtain ⟨c, -, rfl⟩ := List.mem_map.mp inside
        exact Output.placeholderAt?_none (.inr rfl)
      have found := Cuts.found (by rintro rfl; cases first)
        (placeholderAt?_text named chars first) tail
      have whole := cuts_quiet found fun first x after split => quiet _ first x after split
      have joined : (taken ++ ls).flatMap Lexeme.places =
          before ++ (placed ++ (m.tail.map (·, false) ++ ls.flatMap Lexeme.places)) := by
        rw [List.flatMap_append, places, List.append_assoc, List.append_assoc]
      rw [← joined] at whole
      refine ⟨_, whole, ?_⟩
      rw [List.flatMap_append, write_plain, glued, List.flatMap_cons, List.flatMap_append,
        write_plain, written]
      simp [write, Piece.chars, Function.comp_def]

/-- The masked text of lexemes. -/
theorem maskChars_of_lexes (lexes : Lexes s ls) :
    maskChars s = (pieces ls).flatMap Piece.chars := by
  obtain ⟨segs, cuts, written⟩ := cuts_places lexes (cuts_pieces ls)
  rw [maskChars_eq, split, Output.places_of_lexes lexes, segments_eq_of_cuts cuts, written]

/-! ### Lexemes of a masked text -/

/-- A placeholder starts with the end of its first lexeme, which is an operator if it is longer. -/
theorem spells_first {own : List Lexeme} (h : Spells m own) : ∃ l more, own = l :: more ∧
    l.source = m.glued ++ ['%'] ∧ isName m.name = true ∧
      (m.glued ≠ [] → ∃ spelling, l.token = .operator spelling) := by
  obtain @⟨l, t, u, v, w, name, tail, last, named⟩ := h
  obtain ⟨before, split, chars, whole⟩ := source_of_last last
  refine ⟨l, _, rfl, whole, named, fun longer => Classical.byContradiction fun none => longer ?_⟩
  have other : ∀ spelling, l.token ≠ .operator spelling := fun spelling same =>
    none ⟨spelling, same⟩
  cases source : l.source with
  | nil => rfl
  | cons c inside =>
      rw [places_other other source] at last
      obtain rfl | ⟨start, d, rfl⟩ := List.eq_nil_or_concat inside
      · rfl
      · simp [List.getLast?_cons] at last

/-- A text and its masked text are the same up to the first placeholder. -/
theorem common_chars (lexes : Lexes s ls) (h : Cuts mention? ls ms) : ∃ common x y,
    s = common ++ x ∧ ms.flatMap Piece.chars = common ++ y ∧ (∀ c ∈ y.head?, c = '\'') ∧
      (x = [] → y = []) ∧ (common = [] → y = [] ∨ startsSentinel ms = true) := by
  induction h generalizing s with
  | nil => exact ⟨[], [], [], lexes_nil lexes, rfl, by simp, fun _ => rfl, fun _ => .inl rfl⟩
  | @plain l ls ms _ _ ih =>
      obtain ⟨r, rfl, nonempty, -, more⟩ := lexes_cons lexes
      obtain ⟨common, x, y, rfl, same, quote, ends, -⟩ := ih more
      refine ⟨l.source ++ common, x, y, by simp, ?_, quote, ends, ?_⟩
      · rw [List.flatMap_cons, same, ← List.append_assoc]
        rfl
      · intro none
        exact absurd (List.append_eq_nil_iff.mp none).1 nonempty
  | @found own ls m ms _ occurs _ _ =>
      obtain ⟨l, more, rfl, source, -, -⟩ := spells_first (spells_of_mention? occurs)
      obtain ⟨r, rfl, -, -, -⟩ := lexes_cons lexes
      obtain ⟨glued, name, tail⟩ := m
      refine ⟨glued, '%' :: r, (sentinel name).toList ++ tail ++ ms.flatMap Piece.chars,
        by simp [source], by simp [Piece.chars], ?_, nofun, ?_⟩
      · rw [sentinel_chars]
        rintro _ ⟨⟩
        rfl
      · rintro rfl
        exact .inr rfl

/-- The operator characters in front of a percent sign are an operator of their own. -/
theorem lexes_glued {text : String} {glued : List Char}
    (h : token (glued ++ '%' :: r) = some (.operator text, r)) (hn : glued ≠ []) :
    ∃ l, lexChars glued = some [l] ∧ ∀ r', (∀ c ∈ r'.head?, c = '\'') → ∀ ls, Lexes r' ls →
      Lexes (glued ++ r') (l :: ls) := by
  obtain ⟨t, again⟩ := operator_cut h hn
  have alone : Lexes (glued ++ []) [⟨t, glued⟩] := .cons hn (again [] (by simp)) .nil
  rw [List.append_nil] at alone
  exact ⟨⟨t, glued⟩, lexChars_of_lexes alone,
    fun r' quote ls next => .cons hn (again r' quote) next⟩

theorem sentinel_source {name : String} (hn : isName name = true) :
    (sentinelLexeme name).source = (sentinel name).toList := by
  rw [Output.sentinel_chars hn]
  simp [sentinelLexeme, Output.Token.chars, Output.Token.lexemes]

/-- Where the literals are cut off from what stands next to them, the lexemes of a masked text are
those of the text with a literal for each placeholder. -/
theorem lexes_masked (lexes : Lexes s ls) (h : Cuts mention? ls ms) (apart : isApart ms = true) :
    Lexes (ms.flatMap Piece.chars) (ms.flatMap Piece.lexemes) := by
  induction h generalizing s with
  | nil => exact .nil
  | @plain l ls ms _ cuts ih =>
      obtain ⟨r, rfl, nonempty, scanned, more⟩ := lexes_cons lexes
      simp only [isApart, Piece.isClear, Bool.and_eq_true, Bool.not_eq_true',
        Bool.and_eq_false_iff] at apart
      obtain ⟨⟨before, ampersand⟩, apart⟩ := apart
      have next := ih more apart
      obtain ⟨common, x, y, rfl, same, quote, ends, own⟩ := common_chars more cuts
      rw [same] at next ampersand
      have follows : Follows l.source (common ++ x) (common ++ y) := by
        refine .common quote ends (fun takes none => ?_) (fun letter only => ?_)
        · refine (own none).resolve_right fun starts => ?_
          simp [takes, starts] at before
        · cases y with
          | nil => rfl
          | cons c y =>
              cases quote c rfl
              subst only
              obtain other | other := ampersand
              · rw [List.contains_iff_mem.mpr letter] at other
                cases other
              · simp [List.isPrefixOf] at other
      rw [List.flatMap_cons, List.flatMap_cons, same]
      exact .cons nonempty (token_again scanned follows) next
  | @found own ls m ms _ occurs cuts ih =>
      obtain ⟨l, five, rfl, source, named, operator⟩ := spells_first (spells_of_mention? occurs)
      obtain ⟨r, rfl, -, scanned, -⟩ := lexes_cons lexes
      obtain ⟨after, -, more⟩ := lexes_append lexes
      simp only [isApart, Piece.isClear, Bool.and_eq_true, List.isEmpty_iff, bne_iff_ne] at apart
      obtain ⟨⟨tail, noQuote⟩, apart⟩ := apart
      have literal : Lexes ((sentinel m.name).toList ++ ms.flatMap Piece.chars)
          (sentinelLexeme m.name :: ms.flatMap Piece.lexemes) := by
        rw [← sentinel_source named]
        exact .cons (List.cons_ne_nil _ _) (token_literal noQuote) (ih more apart)
      have chars : (Segment.found m :: ms).flatMap Piece.chars =
          m.glued ++ ((sentinel m.name).toList ++ ms.flatMap Piece.chars) := by
        simp [Piece.chars, tail]
      have lexemes : (Segment.found m :: ms).flatMap Piece.lexemes =
          (lexChars m.glued).getD [] ++ (sentinelLexeme m.name :: ms.flatMap Piece.lexemes) := by
        have none : lexChars [] = some [] := rfl
        simp [Piece.lexemes, tail, none]
      rw [chars, lexemes]
      by_cases alone : m.glued = []
      · rw [alone]
        exact literal
      · obtain ⟨spelling, operator⟩ := operator alone
        rw [source, operator, List.append_assoc] at scanned
        obtain ⟨g, read, again⟩ := lexes_glued scanned alone
        rw [read]
        refine again _ ?_ _ literal
        rw [sentinel_chars]
        rintro _ ⟨⟩
        rfl

/-- What a masked text is read as. Where no literal that masks a placeholder runs into what stands
next to it, each placeholder has become one literal and all other lexemes are as they were. -/
theorem lex_mask {text : String} (h : lex text = some ls) (apart : isApart (pieces ls) = true) :
    lex (mask text) = some ((pieces ls).flatMap Piece.lexemes) := by
  have lexes := lexes_of_lexChars h
  rw [lex, mask, String.toList_ofList, maskChars_of_lexes lexes]
  exact lexChars_of_lexes (lexes_masked lexes (cuts_pieces ls) apart)

/-- The quotes between the literals of two placeholders that touch are read as one quote inside a
single literal. -/
theorem touching_placeholders_join : lex (mask "%(a)s%(b)s") =
    some [textLexeme "__qg_param__a'__qg_param__b"] := by decide +kernel

/-- A question mark takes the percent sign that follows it, so that no placeholder is found. -/
theorem question_mark_hides : mask "total ?%(a)s" = "total ?%(a)s" := by decide +kernel

end ReportSql.Sql.Placeholder
