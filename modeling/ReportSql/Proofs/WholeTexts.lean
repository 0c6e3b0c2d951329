import Mathlib.Data.List.Forall2
import ReportSql.Proofs.WrittenTokens

/-!
Tokens among which there is raw SQL. Raw SQL is whole if it is cut into the same lexemes at the end
of a text and before a blank, whatever comes after that. A text of whole and plain tokens that do
not run into each other is cut into the lexemes of these tokens, and has the placeholders that
stand in them.
-/
namespace ReportSql.Output

open Sql (Lexeme Lexes StartsIn numberBreaks)
open Sql.Placeholder (Place placeholderAt?)
open Text (Segment foundValues segments segmentsAfter)

variable {s rest : List Char} {ls : List Lexeme} {sql : String} {a b t : Token}
  {ts us : List Token} {ps : List Place}

theorem source_of_lexes (h : Lexes s ls) : ls.flatMap Lexeme.source = s := by
  induction h with
  | nil => rfl
  | cons _ _ _ ih => rw [List.flatMap_cons, ih]

/-! ### Whole texts -/

/-- The lexemes of a text that a blank follows. -/
def wholeLexemes (sql : String) : List Lexeme :=
  ((Sql.lexChars (sql.toList ++ [' '])).getD []).dropLast

/-- Whether a text is cut into lexemes by itself: where it ends, or whatever follows after a blank
or a line break. -/
def Whole (sql : String) : Prop :=
  ∀ rest ls, StartsIn [' ', '\n'] rest → Lexes rest ls →
    Lexes (sql.toList ++ rest) (wholeLexemes sql ++ ls)

theorem whole_source (h : Whole sql) : (wholeLexemes sql).flatMap Lexeme.source = sql.toList := by
  have texts := source_of_lexes (h [] [] nofun .nil)
  simpa using texts

/-! ### Sound tokens -/

/-- Whether a token is written as what it says it is, where raw SQL can say anything whole. -/
def Token.Sound : Token → Prop
  | .raw sql => Whole sql
  | .int _ => True
  | t => t.isPlain = true

/-- The lexemes of a token, in its place in a text. -/
def Token.pieces : Token → List Lexeme
  | .raw sql => wholeLexemes sql
  | .int (.negSucc n) =>
    [symbolLexeme .minus, ⟨.number (toString (n + 1)) false, (toString (n + 1)).toList⟩]
  | t => t.lexemes false

def Token.isRaw : Token → Bool
  | .raw _ => true
  | _ => false

/-- Whether two tokens do not run into each other. Nothing but a blank goes after raw SQL. -/
def Apart : Token → Token → Prop
  | .raw _, b => b = .mark .space ∨ b = .mark .newline
  | a, b => fits a b = true ∧ (b.isPlain = true ∨ a.isFree = true)

/-- Sound tokens of which no two run into each other. -/
def Separate : List Token → Prop
  | [] => True
  | [t] => t.Sound ∧ t.isOperator = false
  | a :: b :: rest => a.Sound ∧ Apart a b ∧ Separate (b :: rest)

theorem sound_head (h : Separate (t :: ts)) : t.Sound := by
  cases ts with
  | nil => exact h.1
  | cons _ _ => exact h.1

theorem separate_tail (h : Separate (t :: ts)) : Separate ts := by
  cases ts with
  | nil => trivial
  | cons _ _ => exact h.2.2

/-- A token that is neither raw SQL nor a number is plain if it is sound. -/
theorem plain_of_sound (h : t.Sound) (hn : t.isNumber = false) : t.isPlain = true := by
  cases t with
  | raw _ | int _ => cases hn
  | _ => exact h

theorem pieces_source (h : t.Sound) : t.pieces.flatMap Lexeme.source = t.render.toList := by
  cases t with
  | raw sql => exact whole_source h
  | int v =>
      cases v with
      | ofNat n => simp [Token.pieces, Token.lexemes, Token.render]
      | negSucc n =>
          simp [Token.pieces, Token.render, symbolLexeme, Sql.Symbol.text, Int.repr, toString]
  | _ => exact chars_eq_render h

/-! ### Lexemes -/

theorem sqlText_cons (t : Token) (ts : List Token) :
    (sqlText (t :: ts)).toList = t.render.toList ++ (sqlText ts).toList := by
  simp [sqlText]

theorem sqlText_renders (ts : List Token) :
    (sqlText ts).toList = ts.flatMap fun t => t.render.toList := by
  induction ts with
  | nil => rfl
  | cons t ts ih => rw [sqlText_cons, ih, List.flatMap_cons]

/-- A sound token is read as its lexemes where what follows does not continue it. -/
theorem lexes_sound (ht : t.Sound) (hr : t.isRaw = false) (he : Ends t rest)
    (more : Lexes rest ls) :
    Lexes (t.render.toList ++ rest) (t.pieces ++ ls) := by
  rw [← pieces_source ht]
  cases t with
  | raw _ => cases hr
  | int v =>
      cases v with
      | ofNat n =>
          have plain : (Token.int n).isPlain = true := decide_eq_true (Int.natCast_nonneg n)
          exact @lexes_token false _ _ _ plain he more
      | negSucc n =>
          have number := lexes_number (isNumeral_nat (n + 1)) he more
          obtain ⟨c, tail, cons, digit⟩ := numeral_head (isNumeral_nat (n + 1))
          rw [cons] at number
          have minus := lexes_symbol .minus
            (Sql.token_minus (by simp [(Sql.digit_only digit).2.2.2.2])) number
          rw [← cons] at minus
          simpa [Token.pieces, symbolLexeme] using minus
  | _ =>
      have read := @lexes_token false _ _ _ ht he more
      exact read

theorem ends_of_apart (hr : a.isRaw = false) (h : Apart a b) :
    Ends a (b.render.toList ++ rest) := by
  have both : fits a b = true ∧ (b.isPlain = true ∨ a.isFree = true) := by
    cases a <;> first | exact h | cases hr
  obtain ⟨fit, plain | free⟩ := both
  · rw [← chars_eq_render plain]
    exact ends_of_fits fit plain
  · simp [Ends, free]

/-- What the text after the last of some separate tokens must be like. -/
def EndsLast (t : Token) (rest : List Char) : Prop :=
  if t.isRaw then StartsIn [' ', '\n'] rest else Ends t rest

theorem lexes_onto (h : Separate ts) (he : ∀ t ∈ ts.getLast?, EndsLast t rest)
    (more : Lexes rest ls) :
    Lexes ((sqlText ts).toList ++ rest) (ts.flatMap Token.pieces ++ ls) := by
  have each : ∀ {t rest ls}, t.Sound → EndsLast t rest → Lexes rest ls →
      Lexes (t.render.toList ++ rest) (t.pieces ++ ls) := by
    intro t rest ls sound ends more
    by_cases raw : t.isRaw = true
    · cases t with
      | raw sql => exact sound _ _ (by simpa [EndsLast, raw] using ends) more
      | _ => cases raw
    · exact lexes_sound sound (by simpa using raw) (by simpa [EndsLast, raw] using ends) more
  induction ts with
  | nil => exact more
  | cons a ts ih =>
      cases ts with
      | nil =>
          have own := each h.1 (he a rfl) more
          simpa [sqlText] using own
      | cons b ts =>
          obtain ⟨sound, apart, others⟩ := h
          have next := ih others he
          have ends : EndsLast a ((sqlText (b :: ts)).toList ++ rest) := by
            rw [sqlText_cons, List.append_assoc]
            by_cases raw : a.isRaw = true
            · cases a with
              | raw sql =>
                  simp only [EndsLast, raw, if_true]
                  obtain rfl | rfl := apart <;> (rintro _ ⟨⟩; decide)
              | _ => cases raw
            · simpa [EndsLast, raw] using ends_of_apart (by simpa using raw) apart
          rw [sqlText_cons a, List.append_assoc, List.flatMap_cons, List.append_assoc]
          exact each sound ends next

theorem last_of_separate (h : Separate ts) : ∀ t ∈ ts.getLast?, t.isOperator = false := by
  induction ts with
  | nil => simp
  | cons a ts ih =>
      cases ts with
      | nil =>
          rintro _ ⟨⟩
          exact h.2
      | cons b ts =>
          rw [List.getLast?_cons_cons]
          exact ih h.2.2

theorem endsLast_blank (h : t.isOperator = false) (hr : StartsIn [' ', '\n'] rest) :
    EndsLast t rest := by
  have only : ∀ c ∈ [' ', '\n'], c ∈ numberBreaks ∧ c ∈ Sql.breaks ∧
      Sql.Lexer.isOperatorChar c = false ∧ c.isDigit = false :=
    List.all_iff_forall_prop.mp (by decide)
  unfold EndsLast
  split
  · exact hr
  · unfold Ends
    split
    · trivial
    · rw [if_neg (by simp [h])]
      split
      · exact fun c hc => (only c (hr c hc)).1
      · split
        · exact fun c hc => (only c (hr c hc)).2.2.1
        · exact fun c hc => (only c (hr c hc)).2.2.2
        · exact fun c hc => (only c (hr c hc)).2.1

theorem lexes_before (h : Separate ts) (hr : StartsIn [' ', '\n'] rest) (more : Lexes rest ls) :
    Lexes ((sqlText ts).toList ++ rest) (ts.flatMap Token.pieces ++ ls) :=
  lexes_onto h (fun t ht => endsLast_blank (last_of_separate h t ht) hr) more

/-- A text of separate tokens is cut into their lexemes. -/
theorem lexes_separate (h : Separate ts) :
    Lexes (sqlText ts).toList (ts.flatMap Token.pieces) := by
  have ends : StartsIn [' ', '\n'] [] := nofun
  simpa using lexes_before h ends .nil

/-- A text of separate tokens is whole. -/
theorem whole_of_separate (h : Separate ts) : Whole (sqlText ts) := by
  have starts : StartsIn [' ', '\n'] [' '] := by
    rintro _ ⟨⟩
    decide
  have blank := Sql.lexChars_of_lexes (lexes_before h starts (lexes_blank (.inl rfl) .nil))
  have pieces : wholeLexemes (sqlText ts) = ts.flatMap Token.pieces := by
    rw [wholeLexemes, blank, Option.getD_some, List.dropLast_concat]
  intro rest ls hr more
  rw [pieces]
  exact lexes_before h hr more

/-! ### Placeholders -/

open Sql.Placeholder (leadingName nameBetween)

theorem takeWhile_before {p : Char → Bool} {c : Char} (hc : p c = false) :
    (s ++ c :: rest).takeWhile p = s.takeWhile p := by
  induction s with
  | nil => simp [hc]
  | cons d s ih => simp only [List.cons_append, List.takeWhile_cons, ih]

theorem leadingName_before {c : Char} (hc : c = ' ' ∨ c = '\n') :
    leadingName (s ++ c :: rest) = leadingName s := by
  have part : Sql.Placeholder.isNamePart c = false := by
    rcases hc with rfl | rfl <;> decide
  cases s with
  | nil => rcases hc with rfl | rfl <;> rfl
  | cons d s => simp only [List.cons_append, leadingName, takeWhile_before part]

theorem leadingName_length (s : List Char) : (leadingName s).length ≤ s.length := by
  cases s with
  | nil => simp [leadingName]
  | cons d s =>
      have := (List.takeWhile_prefix Sql.Placeholder.isNamePart (l := s)).length_le
      simp only [leadingName]
      split
      · simpa using this
      · simp

theorem closing_before {c : Char} (hc : c = ' ' ∨ c = '\n') :
    [')', 's'].isPrefixOf (s ++ c :: rest) = [')', 's'].isPrefixOf s := by
  match s with
  | [] => rcases hc with rfl | rfl <;> rfl
  | [d] => rcases hc with rfl | rfl <;> simp [List.isPrefixOf]
  | d :: e :: s => simp [List.isPrefixOf]

/-- No placeholder goes on over a blank. -/
theorem nameBetween_before {c : Char} (hc : c = ' ' ∨ c = '\n') :
    nameBetween ['%', '('] [')', 's'] ('%' :: (s ++ c :: rest)) =
      nameBetween ['%', '('] [')', 's'] ('%' :: s) := by
  cases s with
  | nil => rcases hc with rfl | rfl <;> rfl
  | cons d s =>
      have dropped : (s ++ c :: rest).drop (leadingName s).length =
          s.drop (leadingName s).length ++ c :: rest :=
        List.drop_append_of_le_length (leadingName_length s)
      have opening : ∀ r : List Char, ['%', '('].isPrefixOf ('%' :: d :: r) = ('(' == d) := by
        simp [List.isPrefixOf]
      simp only [nameBetween, List.cons_append, opening, List.length_cons, List.length_nil,
        List.drop_succ_cons, List.drop_zero, leadingName_before hc, ← List.drop_drop, dropped,
        closing_before hc]

theorem nameBetween_size {name : String} {size : Nat}
    (h : nameBetween ['%', '('] [')', 's'] s = some (name, size)) : size ≤ s.length := by
  simp only [nameBetween] at h
  split at h
  · next opening =>
    split at h
    · cases h
    · split at h
      · next closing =>
        cases h
        have := (List.isPrefixOf_iff_prefix.mp closing).length_le
        simp only [List.length_drop, List.length_cons, List.length_nil] at this ⊢
        omega
      · cases h
  · cases h

theorem placeholderAt?_before {c : Char} {start : Bool} {p : Place} {qs : List Place}
    (hc : c = ' ' ∨ c = '\n') :
    placeholderAt? (p :: (qs ++ (c, start) :: ps)) = placeholderAt? (p :: qs) := by
  obtain ⟨d, own⟩ := p
  by_cases first : d = '%' ∧ own = true
  · obtain ⟨rfl, rfl⟩ := first
    have := @nameBetween_before (qs.map Prod.fst) (ps.map Prod.fst) c hc
    simpa [placeholderAt?] using this
  · have other : d ≠ '%' ∨ own = false := by
      rcases Decidable.em (d = '%') with rfl | hd
      · exact .inr (by simpa using first)
      · exact .inl hd
    rw [placeholderAt?_none other, placeholderAt?_none other]

theorem placeholderAt?_size {name : String} {size : Nat}
    (h : placeholderAt? ps = some (name, size)) : size ≤ ps.length := by
  unfold placeholderAt? at h
  split at h
  · simpa using nameBetween_size h
  · cases h

/-- What stands before a blank has its placeholders by itself. -/
theorem segmentsAfter_before {c : Char} {start : Bool} (hc : c = ' ' ∨ c = '\n') {qs : List Place}
    {skip : Nat} (hs : skip ≤ qs.length) :
    segmentsAfter placeholderAt? skip (qs ++ (c, start) :: ps) =
      segmentsAfter placeholderAt? skip qs ++ found ((c, start) :: ps) := by
  induction qs generalizing skip with
  | nil =>
      obtain rfl : skip = 0 := by simpa using hs
      rfl
  | cons q qs ih =>
      cases skip with
      | succ skip => exact ih (by simpa using hs)
      | zero =>
          simp only [List.cons_append, segmentsAfter, placeholderAt?_before hc]
          split
          · next name size first =>
            have := placeholderAt?_size first
            rw [ih (by simp only [List.length_cons] at this; omega), List.cons_append]
          · rw [ih (Nat.zero_le _), List.cons_append]

/-- The placeholders of a sound token and what stands between them. -/
def Token.within : Token → List (Segment String Place)
  | .raw sql => found ((wholeLexemes sql).flatMap Sql.Placeholder.Lexeme.places)
  | .int v => ((Token.int v).pieces.flatMap Sql.Placeholder.Lexeme.places).map .plain
  | t => t.segments

theorem quiet_int (v : Int) : ∀ l ∈ (Token.int v).pieces, Quiet l := by
  cases v with
  | ofNat n =>
      intro l hl
      obtain rfl := List.mem_singleton.mp hl
      exact quiet_number (isNumeral_nat n)
  | negSucc n =>
      simp only [Token.pieces, List.mem_cons, List.not_mem_nil, or_false, forall_eq_or_imp,
        forall_eq]
      exact ⟨⟨nofun, by decide⟩, quiet_number (isNumeral_nat (n + 1))⟩

/-- A text of separate tokens has the placeholders that stand in them. -/
theorem found_separate (h : Separate ts) :
    found ((ts.flatMap Token.pieces).flatMap Sql.Placeholder.Lexeme.places) =
      ts.flatMap Token.within := by
  induction ts with
  | nil => rfl
  | cons a ts ih =>
      have ih := ih (separate_tail h)
      have sound := sound_head h
      simp only [List.flatMap_cons, List.flatMap_append, ← ih]
      cases a with
      | raw sql =>
          cases ts with
          | nil => simp [Token.within, Token.pieces, found, segments, segmentsAfter]
          | cons b ts =>
              obtain rfl | rfl := h.2.1
              · exact segmentsAfter_before (.inl rfl) (Nat.zero_le _)
              · exact segmentsAfter_before (.inr rfl) (Nat.zero_le _)
      | int v => exact found_lexemes (quiet_int v)
      | mark m =>
          by_cases modulo : m = .modulo
          · subst modulo
            cases ts with
            | nil => cases h.2
            | cons b ts =>
                obtain rfl : b = .mark .space := of_decide_eq_true h.2.1.1
                exact found_modulo
          · exact found_token sound fun same => modulo (Token.mark.inj same)
      | _ =>
          have own := @found_token _
            ((ts.flatMap Token.pieces).flatMap Sql.Placeholder.Lexeme.places) sound
            (fun same => Token.noConfusion same)
          exact own

theorem foundValues_append {α β : Type} (l r : List (Segment α β)) :
    foundValues (l ++ r) = foundValues l ++ foundValues r :=
  List.filterMap_append

theorem places_of_lexes (h : Lexes s ls) :
    Sql.Placeholder.places s = ls.flatMap Sql.Placeholder.Lexeme.places := by
  rw [Sql.Placeholder.places, Sql.lexChars_of_lexes h]

theorem names_separate (h : Separate ts) :
    Sql.Placeholder.names (sqlText ts) =
      Text.sortedSet (foundValues (ts.flatMap Token.within)) := by
  rw [Sql.Placeholder.names, Sql.Placeholder.split, places_of_lexes (lexes_separate h),
    ← found_separate h]

/-! ### Other names -/

/-- Whether two tokens are one token or two names. -/
inductive Twin : Token → Token → Prop where
  | same (t : Token) : Twin t t
  | names (v w : String) : Twin (.ident v) (.ident w)

/-- Whether two lexemes are one lexeme or two names. -/
inductive NameTwin : Lexeme → Lexeme → Prop where
  | same (l : Lexeme) : NameTwin l l
  | names (v w : String) : NameTwin (nameLexeme v) (nameLexeme w)

theorem fits_name (v w : String) : fits a (.ident v) = fits a (.ident w) := by
  unfold fits
  simp [Token.isBreak, Token.canBeSigned, Token.endsName]

theorem twin_sound (h : Twin a b) (ha : a.Sound) : b.Sound := by
  cases h with
  | same => exact ha
  | names v w => rfl

theorem twin_apart {c d : Token} (h : Apart a b) (hac : Twin a c) (hbd : Twin b d) : Apart c d := by
  have second : Apart a d := by
    cases hbd with
    | same => exact h
    | names v w =>
        cases a with
        | raw _ => rcases h with h | h <;> cases h
        | _ => exact ⟨(fits_name v w).symm.trans h.1, .inl rfl⟩
  cases hac with
  | same => exact second
  | names v w => exact second

theorem separate_twins (h : Separate ts) (twins : List.Forall₂ Twin ts us) : Separate us := by
  induction twins with
  | nil => trivial
  | @cons a c ts us own others ih =>
      cases others with
      | nil =>
          refine ⟨twin_sound own h.1, ?_⟩
          cases own with
          | same => exact h.2
          | names => rfl
      | cons next others =>
          exact ⟨twin_sound own h.1, twin_apart h.2.1 own next, ih h.2.2⟩

theorem pieces_twins (twins : List.Forall₂ Twin ts us) :
    List.Forall₂ NameTwin (ts.flatMap Token.pieces) (us.flatMap Token.pieces) := by
  induction twins with
  | nil => exact .nil
  | cons own _ ih =>
      refine List.rel_append ?_ ih
      cases own with
      | same t => exact List.forall₂_same.mpr fun l _ => .same l
      | names v w => exact .cons (.names v w) .nil

theorem foundValues_plain {α β : Type} (bs : List β) :
    foundValues (bs.map (Segment.plain : β → Segment α β)) = [] := by
  simp [foundValues]

theorem foundValues_twins (twins : List.Forall₂ Twin ts us) :
    foundValues (ts.flatMap Token.within) = foundValues (us.flatMap Token.within) := by
  induction twins with
  | nil => rfl
  | cons own _ ih =>
      rw [List.flatMap_cons, List.flatMap_cons, foundValues_append, foundValues_append, ih]
      cases own with
      | same => rfl
      | names v w =>
          have none : ∀ n, foundValues (Token.ident n).within = [] := fun _ => foundValues_plain _
          rw [none, none]

/-- Other names in a text change its lexemes only where they stand, and no placeholder. -/
theorem sqlText_twins (h : Separate ts) (twins : List.Forall₂ Twin ts us) :
    Sql.Placeholder.names (sqlText us) = Sql.Placeholder.names (sqlText ts) ∧
      ∃ ls ms, Sql.lex (sqlText ts) = some ls ∧ Sql.lex (sqlText us) = some ms ∧
        List.Forall₂ NameTwin ls ms := by
  have other := separate_twins h twins
  refine ⟨?_, _, _, Sql.lexChars_of_lexes (lexes_separate h),
    Sql.lexChars_of_lexes (lexes_separate other), pieces_twins twins⟩
  rw [names_separate h, names_separate other, foundValues_twins twins]

end ReportSql.Output
