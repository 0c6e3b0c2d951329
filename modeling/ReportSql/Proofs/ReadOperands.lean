import ReportSql.Proofs.ReadOperators

/-!
Reading what an expression starts with: names, literals, calls, constructs that a word starts, and
parentheses.
-/
namespace ReportSql.Sql.Grammar

open Parse
open Text (isCapital)

variable {g : Nesting} {ts us rest more : List Token} {x y l r : Expr} {k w c : String}
  {s : Symbol} {level edge n : Nat} {p q : Bool}

/-- Tokens are read as what an expression starts with, where what follows does not go on with a
last operand. -/
structure Leads (g : Nesting) (edge : Nat) (ts : List Token) (x : Expr) : Prop where
  opens : ∀ rest, Follows rest → Opening (ts ++ rest)
  unbracketed : Token.symbol .leftBracket ∉ ts
  reads : ∀ n rest, ts.length ≤ n → Follows rest → nextPrecedence rest ≤ edge →
    leadingExpr g (n + 1) (ts ++ rest) = .ok (x, rest)

theorem Leads.whole (h : Leads g edge ts x) : Reads g level edge ts x where
  opens := h.opens
  unbracketed := h.unbracketed
  reads p rest y more _ hf he steps := by
    have length : ts.length ≤ (ts ++ rest).length := by simp
    rw [exprAbove_eq, run_bind, run_ahead]
    simp only
    rw [run_bind, h.reads _ rest length hf he]
    exact iterate_of_steps steps

/-! ### The first token -/

section

-- the equation of what starts an expression, made before the proofs that would wait for it
attribute [local simp] leadingExpr

end

theorem leadingExpr_word
    (literal : typedLiteral (leadingExpr g n) (.word w p :: ts) = .error .unexpected)
    (read : wordExpr g (leadingExpr g n) (.word w p) (wordIdent w p) ts = .ok ((x, q), rest))
    (ends : keyword "COLLATE" rest = .ok (false, rest)) :
    leadingExpr g (n + 1) (.word w p :: ts) = .ok (x, rest) := by
  unfold leadingExpr
  simp only [run_bind, run_optional_none literal, run_ahead, run_next]
  rw [show wordExpr g (leadingExpr g n) (.word w p) ⟨w, if p then .double else .bare⟩ ts =
    .ok ((x, q), rest) from read]
  cases q <;> simp only [Bool.false_eq_true, if_false, if_true, run_bind, ends, run_ite, run_pure]

theorem leadingExpr_text {v : String} (hf : Follows rest) :
    leadingExpr g (n + 1) (.text .plain v :: rest) = .ok (.value (.text .plain v), rest) := by
  have literal := @typedLiteral_of_not_word rest (leadingExpr g n) (.text .plain v) nofun
  have ends : keyword "COLLATE" rest = .ok (false, rest) := hf.keyword (by decide)
  unfold leadingExpr
  simp only [run_bind, run_optional_none literal, run_ahead, run_next, run_set, value, run_pure,
    if_true, run_ite, ends, Bool.false_eq_true, if_false]

theorem leadingExpr_number {v : String} (hf : Follows rest) :
    leadingExpr g (n + 1) (.number v false :: rest) = .ok (.value (.number v false), rest) := by
  have literal := @typedLiteral_of_not_word rest (leadingExpr g n) (.number v false) nofun
  have ends : keyword "COLLATE" rest = .ok (false, rest) := hf.keyword (by decide)
  unfold leadingExpr
  simp only [run_bind, run_optional_none literal, run_ahead, run_next, run_set, value, run_pure,
    if_true, run_ite, ends, Bool.false_eq_true, if_false]

theorem leadingExpr_minus
    (read : g.exprAbove signPrecedence ts = .ok (x, rest)) (hf : Follows rest) :
    leadingExpr g (n + 1) (.symbol .minus :: ts) = .ok (.unary .minus x, rest) := by
  have literal := @typedLiteral_of_not_word ts (leadingExpr g n) (.symbol .minus) nofun
  have ends : keyword "COLLATE" rest = .ok (false, rest) := hf.keyword (by decide)
  unfold leadingExpr
  simp only [run_bind, run_optional_none literal, run_ahead, run_next, unaryExpr, read, run_pure,
    if_true, run_ite, ends, Bool.false_eq_true, if_false]

theorem leadingExpr_paren (read : parenExpr g ts = .ok (x, rest)) (hf : Follows rest) :
    leadingExpr g (n + 1) (.symbol .leftParen :: ts) = .ok (x, rest) := by
  have literal := @typedLiteral_of_not_word ts (leadingExpr g n) (.symbol .leftParen) nofun
  have ends : keyword "COLLATE" rest = .ok (false, rest) := hf.keyword (by decide)
  unfold leadingExpr
  simp only [run_bind, run_optional_none literal, run_ahead, run_next, read, run_pure,
    if_true, run_ite, ends, Bool.false_eq_true, if_false]

/-! ### Columns -/

/-- Words that start a construct even where a column is named without quotes. -/
def columnConstructs : List String := ["EXISTS", "INTERVAL", "TRIM"]

/-- Reserved words that start a construct or a literal. -/
def reservedConstructs : List String :=
  ["TRUE", "FALSE", "NULL", "CURRENT_CATALOG", "CURRENT_USER", "SESSION_USER", "USER",
   "CURRENT_TIMESTAMP", "CURRENT_TIME", "CURRENT_DATE", "LOCALTIME", "LOCALTIMESTAMP", "CASE",
   "CAST", "ARRAY", "NOT"]

/-- What the name of a column is followed by. -/
abbrev AfterName (rest : List Token) : Prop := Before (.period :: operandSymbols) operandWords rest

theorem afterName_of_follows (h : Follows rest) : AfterName rest :=
  h.mono (List.subset_cons_self _ _) fun _ => id

variable {lead : Parse Expr} {word : Ident}

/-- A word in the place of a column starts no construct, since no parenthesis follows it. -/
theorem wordConstruct_column (h : AfterName rest)
    (hk : k ∉ columnConstructs ++ reservedConstructs) :
    wordConstruct g lead word k rest = .ok (none, rest) ∨
      wordConstruct g lead word k rest = .error .unexpected ∧ neverNames.contains k = false := by
  have opens : expect .leftParen rest = .error .unexpected := h.expect (by decide)
  have position : atSymbol .leftParen rest = .ok (false, rest) := h.atSymbol (by decide)
  unfold wordConstruct
  split
  all_goals try exact absurd (by decide) hk
  · exact .inr ⟨by simp only [run_bind, convertExpr, opens], by decide⟩
  · exact .inr ⟨by simp only [run_bind, castExpr, opens], by decide⟩
  · exact .inr ⟨by simp only [run_bind, castExpr, opens], by decide⟩
  · exact .inr ⟨by simp only [run_bind, extractExpr, opens], by decide⟩
  · exact .inr ⟨by simp only [run_bind, roundingExpr, opens], by decide⟩
  · exact .inr ⟨by simp only [run_bind, roundingExpr, opens], by decide⟩
  · exact .inl (by simp only [run_bind, position, run_ite, Bool.false_eq_true, if_false, run_pure])
  · exact .inr ⟨by simp only [run_bind, substringExpr, opens], by decide⟩
  · exact .inr ⟨by simp only [run_bind, overlayExpr, opens], by decide⟩
  · exact .inl rfl

theorem wordExpr_of_name {t : Token}
    (hk : t.keyword?.getD "" ∉ columnConstructs ++ reservedConstructs) (h : AfterName ts)
    (read : nameOrCall g lead word ts = .ok (x, rest)) :
    ∃ q, wordExpr g lead t word ts = .ok ((x, q), rest) := by
  rcases @wordConstruct_column g ts _ lead word h hk with none | ⟨failed, plain⟩
  · refine ⟨true, ?_⟩
    simp only [wordExpr, run_bind, run_ahead, none, read, run_pure]
  · refine ⟨false, ?_⟩
    simp only [wordExpr, run_bind, run_ahead, failed, plain, Bool.false_eq_true, if_false, read,
      run_set, run_pure]

theorem nameOrCall_column (hf : Follows rest) :
    nameOrCall g lead word rest = .ok (.name [word], rest) := by
  rcases hf.cases with rfl | ⟨s, more, hs, rfl⟩ | ⟨w, more, hw, hc, rfl⟩
  · rfl
  · simp only [operandSymbols, List.mem_cons, List.not_mem_nil, or_false] at hs
    rcases hs with rfl | rfl | rfl | rfl | rfl | rfl | rfl | rfl | rfl | rfl | rfl | rfl | rfl |
      rfl | rfl <;> rfl
  · rfl

theorem nameOrCall_qualified (hf : Follows rest) :
    nameOrCall g lead word (.symbol .period :: .word c q :: rest) =
      .ok (.name [word, wordIdent c q], rest) := by
  have ends : accept .period rest = .ok (false, rest) := hf.accept (by decide)
  have column : atSymbol .leftParen rest = .ok (false, rest) := hf.atSymbol (by decide)
  unfold nameOrCall
  simp only [run_bind, run_peek, List.head?_cons, run_ahead, nameOrCall.more, accept_cons, if_true,
    run_ite]
  simp [nameOrCall.more, ends, column]

theorem follows_head (hf : Follows rest) :
    ∀ u ∈ rest.head?, u ≠ .symbol .period ∧ u.keyword? ≠ some "ON" := by
  intro u hu
  rcases hf.head u hu with ⟨s, hs, rfl⟩ | ⟨w, hw, hc, rfl⟩
  · refine ⟨?_, nofun⟩
    rintro ⟨⟩
    exact absurd hs (by decide)
  · refine ⟨nofun, ?_⟩
    rw [keyword?_capital hc]
    rintro ⟨⟩
    exact absurd hw (by decide)

/-- The words that no column starts with. -/
def notColumns : List String := columnConstructs ++ reservedConstructs ++ openingWords

theorem keyword?_ne_of_getD {t : Token} {ks : List String} (h : t.keyword?.getD "" ∉ ks)
    (hk : k ∈ ks) : t.keyword? ≠ some k := by
  intro found
  rw [found] at h
  exact h hk

theorem openingToken_word (hk : (Token.word w p).keyword?.getD "" ∉ notColumns) :
    OpeningToken (.word w p) where
  symbol _ _ := nofun
  keyword _ hk' := keyword?_ne_of_getD hk (List.mem_append_right _ hk')

theorem typedLiteral_column (hk : (Token.word w p).keyword?.getD "" ∉ notColumns)
    (h : AfterName rest) : typedLiteral lead (.word w p :: rest) = .error .unexpected :=
  typedLiteral_before h (by decide) operandWords_not_typeParts operandWords_known
    (keyword?_ne_of_getD hk (by decide)) (keyword?_ne_of_getD hk (by decide))

theorem Leads.column (hk : (Token.word w p).keyword?.getD "" ∉ notColumns) :
    Leads g edge [.word w p] (.name [wordIdent w p]) where
  opens _ hf := .operand (openingToken_word hk) (follows_head hf)
  unbracketed := by simp
  reads n rest _ hf _ := by
    obtain ⟨q, read⟩ := @wordExpr_of_name g rest _ _ (leadingExpr g n) _ _
      (fun h => hk (List.mem_append_left _ h)) (afterName_of_follows hf) (nameOrCall_column hf)
    exact leadingExpr_word (typedLiteral_column hk (afterName_of_follows hf)) read
      (hf.keyword (by decide))

theorem Leads.qualified (hk : (Token.word w p).keyword?.getD "" ∉ notColumns) :
    Leads g edge [.word w p, .symbol .period, .word c q]
      (.name [wordIdent w p, wordIdent c q]) where
  opens _ hf := .qualified (openingToken_word hk) hf
  unbracketed := by simp
  reads n rest _ hf _ := by
    have after : AfterName (.symbol .period :: .word c q :: rest) :=
      before_symbol (by decide) (by simpa using hf.unbracketed)
    obtain ⟨q, read⟩ := @wordExpr_of_name g _ _ _ (leadingExpr g n) _ _
      (fun h => hk (List.mem_append_left _ h)) after (nameOrCall_qualified hf)
    exact leadingExpr_word (typedLiteral_column hk after) read (hf.keyword (by decide))

/-! ### Literals -/

theorem Leads.text {v : String} : Leads g edge [.text .plain v] (.value (.text .plain v)) where
  opens _ hf := .operand ⟨fun _ _ => nofun, fun _ _ => nofun⟩ (follows_head hf)
  unbracketed := by simp
  reads _ _ _ hf _ := leadingExpr_text hf

theorem Leads.number {v : String} : Leads g edge [.number v false] (.value (.number v false)) where
  opens _ hf := .operand ⟨fun _ _ => nofun, fun _ _ => nofun⟩ (follows_head hf)
  unbracketed := by simp
  reads _ _ _ hf _ := leadingExpr_number hf

theorem leadingExpr_construct (hk : (Token.word w p).keyword? = some k)
    (type : k ∉ "ARRAY" :: typeWords) (hb : Token.symbol .leftBracket ∉ ts)
    (read : wordConstruct g (leadingExpr g n) (wordIdent w p) k ts = .ok (some x, rest))
    (ends : keyword "COLLATE" rest = .ok (false, rest)) :
    leadingExpr g (n + 1) (.word w p :: ts) = .ok (x, rest) := by
  have getD : (Token.word w p).keyword?.getD "" = k := by
    rw [hk]
    rfl
  simp only [List.mem_cons, not_or] at type
  have literal : typedLiteral (leadingExpr g n) (.word w p :: ts) = .error .unexpected := by
    refine typedLiteral_of_none ?_ ?_ hb
    · rw [hk]
      rintro ⟨⟩
      exact type.1 rfl
    · rw [getD, keywordType_none type.2]
      rfl
  refine @leadingExpr_word _ _ _ _ _ _ _ true literal ?_ ends
  simp only [wordExpr, run_bind, run_ahead, getD, read, run_pure, run_set]

/-- A word that is a literal by itself. -/
theorem Leads.constant (hk : (Token.word w p).keyword? = some k)
    (type : k ∉ "ARRAY" :: typeWords) (opening : k ∉ openingWords)
    (constant : ∀ lead word, wordConstruct g lead word k = pure (some x)) :
    Leads g edge [.word w p] x where
  opens _ hf := by
    refine .operand ⟨fun _ _ => nofun, fun l hl => ?_⟩ (follows_head hf)
    rw [hk]
    rintro ⟨⟩
    exact opening hl
  unbracketed := by simp
  reads n rest _ hf _ :=
    leadingExpr_construct hk type hf.unbracketed (by rw [constant]; rfl) (hf.keyword (by decide))

theorem Leads.null : Leads g edge [.word "NULL" false] (.value .null) :=
  .constant (keyword?_capital (by decide)) (by decide) (by decide) fun _ _ => rfl

theorem Leads.boolean {b : Bool}
    (hw : (Token.word w p).keyword? = some (if b then "TRUE" else "FALSE")) :
    Leads g edge [.word w p] (.value (.boolean b)) := by
  cases b with
  | true => exact .constant hw (by decide) (by decide) fun _ _ => rfl
  | false => exact .constant hw (by decide) (by decide) fun _ _ => rfl

theorem openingToken_capital (hc : isCapital w = true) (hk : w ∉ openingWords) :
    OpeningToken (.word w false) where
  symbol _ _ := nofun
  keyword k hk' := by
    rw [keyword?_capital hc]
    rintro ⟨⟩
    exact hk hk'

theorem leadingExpr_typed {type : DataType} {v : String}
    (read : dataType (.word w p :: .text .plain v :: rest) = .ok (type, .text .plain v :: rest)) :
    typedLiteral lead (.word w p :: .text .plain v :: rest) = match type.sort with
      | .custom => .error .unexpected
      | .interval => interval lead (.text .plain v :: rest)
      | _ => .ok (.typed type v, rest) := by
  simp only [typedLiteral, run_bind, read]
  obtain ⟨text, sort⟩ := type
  cases sort <;> rfl

theorem dataType_capital {type : DataType} {v : String} (hc : isCapital w = true)
    (array : w ≠ "ARRAY") (known : ∀ ts, keywordType w ts = .ok (some type, ts))
    (hb : Token.symbol .leftBracket ∉ rest) :
    dataType (.word w false :: .text .plain v :: rest) = .ok (type, .text .plain v :: rest) := by
  refine dataType_of_some ?_ ?_ (by simpa using hb)
  · rw [keyword?_capital hc]
    exact fun h => array (Option.some.inj h)
  · rw [keyword?_capital hc]
    exact known _

theorem Leads.date {v : String} :
    Leads g edge [.word "DATE" false, .text .plain v] (.typed ⟨"DATE", .date⟩ v) where
  opens _ _ := by
    refine .operand (openingToken_capital (by decide) (by decide)) ?_
    rintro _ ⟨⟩
    exact ⟨nofun, nofun⟩
  unbracketed := by simp
  reads n rest _ hf _ := by
    have read := @dataType_capital rest "DATE" _ v (by decide) (by decide) (fun _ => rfl)
      hf.unbracketed
    have literal := @leadingExpr_typed rest _ _ (leadingExpr g n) _ v read
    unfold leadingExpr
    simp only [List.cons_append, List.nil_append, run_bind, run_optional literal, run_pure]

theorem intervalUnit_none (hf : Follows rest) :
    intervalUnit rest = .ok (⟨false, ""⟩, rest) := by
  have field : oneOf intervalFields rest = .ok (none, rest) := hf.oneOf (by decide)
  have precision : spacedPrecision rest = .ok ("", rest) := by
    simp only [spacedPrecision, run_bind, hf.optionalInParens (operandSymbols_closed _ (by decide)),
      run_pure]
  have last : keyword "TO" rest = .ok (false, rest) := hf.keyword (by decide)
  simp only [intervalUnit, run_bind, field, precision, last, run_ite, Bool.false_eq_true, if_false,
    run_pure]
  rfl

theorem Leads.interval {v : String} :
    Leads g edge [.word "INTERVAL" false, .text .plain v]
      (.interval (.value (.text .plain v)) ⟨false, ""⟩) where
  opens _ _ := by
    refine .operand (openingToken_capital (by decide) (by decide)) ?_
    rintro _ ⟨⟩
    exact ⟨nofun, nofun⟩
  unbracketed := by simp
  reads n rest hn hf _ := by
    have read := @dataType_capital rest "INTERVAL" _ v (by decide) (by decide) (fun _ => rfl)
      hf.unbracketed
    obtain ⟨m, rfl⟩ : ∃ m, n = m + 1 := ⟨n - 1, by simp at hn; omega⟩
    have literal := @leadingExpr_typed rest _ _ (leadingExpr g (m + 1)) _ v read
    simp only [Grammar.interval, run_bind, leadingExpr_text hf, intervalUnit_none hf,
      run_pure] at literal
    rw [leadingExpr]
    simp only [List.cons_append, List.nil_append, run_bind, run_optional literal, run_pure]

/-! ### Parentheses and prefixes -/

theorem Opening.goesOn (h : Opening ts) :
    ∀ u ∈ ts.head?, u ≠ .symbol .period ∧ u.keyword? ≠ some "ON" := by
  obtain ⟨t, more, rfl, ht⟩ := h.head
  rintro _ ⟨⟩
  exact ⟨ht.symbol .period (by decide), ht.keyword "ON" (by decide)⟩

theorem openingToken_symbol (hs : s ∉ [Symbol.rightParen, .star, .period]) :
    OpeningToken (.symbol s) where
  symbol s' hs' := by
    rintro ⟨⟩
    exact hs hs'
  keyword _ _ := nofun

theorem follows_closing (hf : Follows rest) : Follows (.symbol .rightParen :: rest) :=
  before_symbol (by decide) (by simpa using hf.unbracketed)

theorem Leads.nested (h : ReadsItem g ts x) :
    Leads g edge (.symbol .leftParen :: (ts ++ [.symbol .rightParen])) (.nested x) where
  opens rest hf := by
    refine .operand (openingToken_symbol (by decide)) ?_
    simpa using (h.opens (follows_closing hf)).goesOn
  unbracketed := by simp [h.unbracketed]
  reads n rest _ hf _ := by
    have query := (h.opens (follows_closing hf)).atQuery
    have items := @commaSeparated_items g rest [ts] [x] (.cons h .nil) (List.cons_ne_nil _ _)
      hf.unbracketed
    have ends : accept .period rest = .ok (false, rest) := hf.accept (by decide)
    simp only [commaJoined] at items
    simp only [List.cons_append, List.append_assoc, List.nil_append]
    refine leadingExpr_paren ?_ hf
    simp only [parenExpr, run_bind, query, run_ite, Bool.false_eq_true, if_false, items, run_pure,
      expect_self, ends]

theorem query_closing {q : Query} (h : ReadsQuery g ts q) (hf : Follows rest) :
    g.query (ts ++ .symbol .rightParen :: rest) = .ok (q, .symbol .rightParen :: rest) :=
  h.reads _ (before_symbol (by decide) (by simpa using hf.unbracketed))

theorem Leads.subquery {q : Query} (h : ReadsQuery g ts q) (starts : StartsQuery ts) :
    Leads g edge (.symbol .leftParen :: (ts ++ [.symbol .rightParen])) (.subquery q) where
  opens rest hf := by
    obtain ⟨k, hk, more, rfl⟩ := starts
    refine .operand (openingToken_symbol (by decide)) ?_
    rintro _ ⟨⟩
    refine ⟨nofun, ?_⟩
    simp only [List.mem_cons, List.not_mem_nil, or_false] at hk
    rcases hk with rfl | rfl <;> rw [keyword?_capital (by decide)] <;> decide
  unbracketed := by simp [h.unbracketed]
  reads n rest _ hf _ := by
    have ends : accept .period rest = .ok (false, rest) := hf.accept (by decide)
    simp only [List.cons_append, List.append_assoc, List.nil_append]
    refine leadingExpr_paren ?_ hf
    simp only [parenExpr, run_bind, atQuery_of_starts starts, run_ite, if_true,
      query_closing h hf, run_pure, expect_self, ends, Bool.false_eq_true, if_false]

theorem wordConstruct_exists :
    wordConstruct g lead word "EXISTS" = (do return some (← existsExpr g false)) := rfl

theorem wordConstruct_not : wordConstruct g lead word "NOT" = (do return some (← notExpr g)) := rfl

theorem wordConstruct_case :
    wordConstruct g lead word "CASE" = (do return some (← caseExpr g)) := rfl

theorem Leads.exists {q : Query} {negated : Bool} (h : ReadsQuery g ts q) :
    Leads g edge
      (notTokens negated ++
        .word "EXISTS" false :: .symbol .leftParen :: (ts ++ [.symbol .rightParen]))
      (.exists q negated) where
  opens rest hf := by
    have exists_ : OpeningToken (.word "EXISTS" false) :=
      openingToken_capital (by decide) (by decide)
    cases negated with
    | false =>
        refine .operand exists_ ?_
        rintro _ ⟨⟩
        exact ⟨nofun, nofun⟩
    | true =>
        refine .operand (openingToken_capital (by decide) (by decide)) ?_
        rintro _ ⟨⟩
        exact ⟨nofun, exists_.keyword "ON" (by decide)⟩
  unbracketed := List.not_mem_append unbracketed_notTokens (by simp [h.unbracketed])
  reads n rest _ hf _ := by
    have read : existsExpr g negated (.symbol .leftParen :: (ts ++ .symbol .rightParen :: rest)) =
        .ok (.exists q negated, rest) := by
      simp only [existsExpr, inParens, run_bind, expect_self, query_closing h hf, run_pure]
    have ends : keyword "COLLATE" rest = .ok (false, rest) := hf.keyword (by decide)
    have bracket : Token.symbol .leftBracket ∉
        .symbol .leftParen :: (ts ++ .symbol .rightParen :: rest) := by
      simp [h.unbracketed, hf.unbracketed]
    cases negated with
    | false =>
        simp only [notTokens, Bool.false_eq_true, if_false, List.nil_append, List.cons_append,
          List.append_assoc]
        refine leadingExpr_construct (keyword?_capital (by decide)) (by decide) bracket ?_ ends
        rw [wordConstruct_exists, run_bind, read]
        rfl
    | true =>
        have found : keyword "EXISTS" (.word "EXISTS" false :: .symbol .leftParen ::
            (ts ++ .symbol .rightParen :: rest)) = .ok (true, _) := keyword_self (by decide)
        simp only [notTokens, if_true, List.nil_append, List.cons_append, List.append_assoc]
        refine leadingExpr_construct (keyword?_capital (by decide)) (by decide)
          (by simpa using bracket) ?_ ends
        rw [wordConstruct_not, run_bind, notExpr, run_bind, found]
        simp only [run_ite, if_true, read, run_pure]

theorem Leads.not (h : Inside g level edge ts x) (hl : notPrecedence < level)
    (opener : ∀ t ∈ ts.head?, t.keyword? ≠ some "EXISTS") (nonempty : ts ≠ []) :
    Leads g (min notPrecedence edge) (.word "NOT" false :: ts) (.unary .not x) where
  opens rest hf := .operand (openingToken_capital (by decide) (by decide)) (h.opens rest hf).goesOn
  unbracketed := by simpa using h.unbracketed
  reads n rest _ hf he := by
    have other : keyword "EXISTS" (ts ++ rest) = .ok (false, ts ++ rest) := by
      cases ts with
      | nil => exact absurd rfl nonempty
      | cons t ts => exact keywords_of_ne (opener t rfl)
    have operand := h.reads notPrecedence rest hl hf (by omega) (by omega)
    rw [List.cons_append]
    refine leadingExpr_construct (keyword?_capital (by decide)) (by decide)
      (List.not_mem_append h.unbracketed hf.unbracketed) ?_ (hf.keyword (by decide))
    rw [wordConstruct_not, run_bind, notExpr, run_bind, other]
    simp only [run_ite, Bool.false_eq_true, if_false, run_bind, operand, run_pure]

theorem Leads.minus (h : Inside g level edge ts x) (hl : signPrecedence < level) :
    Leads g (min signPrecedence edge) (.symbol .minus :: ts) (.unary .minus x) where
  opens rest hf := .operand (openingToken_symbol (by decide)) (h.opens rest hf).goesOn
  unbracketed := by simpa using h.unbracketed
  reads n rest _ hf he :=
    leadingExpr_minus (h.reads signPrecedence rest hl hf (by omega) (by omega)) hf

/-! ### Calls -/

/-- Words that start a construct, a literal or a query where a function is named. -/
def callConstructs : List String :=
  ["CONVERT", "TRY_CAST", "SAFE_CAST", "EXTRACT", "CEIL", "FLOOR", "POSITION", "SUBSTRING",
   "OVERLAY"] ++ notColumns ++ typeWordsNotDate

theorem wordConstruct_call (hk : k ∉ callConstructs) :
    wordConstruct g lead word k = pure none := by
  unfold wordConstruct
  split
  all_goals try exact absurd (by decide) hk
  rfl

theorem nameOrCall_call :
    nameOrCall g lead word (.symbol .leftParen :: ts) =
      callRest g lead [word] false (.symbol .leftParen :: ts) := by
  unfold nameOrCall
  simp [nameOrCall.more, atSymbol]

/-- Tokens are read as an argument, which may be a star. -/
inductive ReadsArgument (g : Nesting) : List Token → Argument → Prop where
  | star : ReadsArgument g [.symbol .star] .star
  | expr {ts : List Token} {x : Expr} : ReadsItem g ts x → (∀ names, x ≠ .wildcard names) →
      ReadsArgument g ts (.expr x)

theorem ReadsArgument.unbracketed {a : Argument} (h : ReadsArgument g ts a) :
    Token.symbol .leftBracket ∉ ts := by
  cases h with
  | star => simp
  | expr own _ => exact own.unbracketed

/-- What an argument list starts with: no quantifier, no treatment of NULL and not its end. -/
structure StartsArguments (ts : List Token) : Prop where
  nulls : jsonNulls ts = .ok ([], ts)
  all : keywords ["ALL"] ts = .ok (false, ts)
  distinct : keywords ["DISTINCT"] ts = .ok (false, ts)
  goesOn : accept .rightParen ts = .ok (false, ts)

theorem Opening.startsArguments (h : Opening ts) : StartsArguments ts :=
  ⟨h.jsonNulls, h.keyword (by decide), h.keyword (by decide), h.accept (by decide)⟩

theorem ReadsArgument.starts {a : Argument} (h : ReadsArgument g ts a) (hf : Follows rest) :
    StartsArguments (ts ++ rest) := by
  cases h with
  | star => exact ⟨by simp [jsonNulls], keywords_symbol, keywords_symbol, rfl⟩
  | expr own _ => exact (own.opens hf).startsArguments

theorem namedArgumentRest_before (h : Before [.comma, .rightParen] [] rest) :
    namedArgumentRest g rest = .error .unexpected := by
  have value : keyword "VALUE" rest = .ok (false, rest) := h.keyword (by decide)
  have arrow : accept .fatArrow rest = .ok (false, rest) := h.accept (by decide)
  have colon : accept .colon rest = .ok (false, rest) := h.accept (by decide)
  simp only [namedArgumentRest, argumentOperator, run_bind, value, run_ite, Bool.false_eq_true,
    if_false, arrow, colon, run_fail]

theorem ReadsArgument.reads {a : Argument} (h : ReadsArgument g ts a)
    (unread : ∀ rest, g.expr (.symbol .star :: rest) = .error .unexpected) :
    ReadsBefore [.comma, .rightParen] [] (argument g) ts a := by
  intro rest hr
  have unnamed := run_optional_none (@namedArgumentRest_before g rest hr)
  cases h with
  | star =>
      have lone : optional (do return .expr (← g.expr) :: (← namedArgumentRest g))
          (.symbol .star :: rest) = .ok (none, .symbol .star :: rest) := by
        refine run_optional_none ?_
        simp only [run_bind, unread]
      simp only [argument, run_bind, run_ahead, List.cons_append, List.nil_append, leadingWildcard,
        run_skip, run_pure, List.tail_cons, run_set, lone, List.isEmpty_nil, if_true]
  | @expr ts x own plain =>
      have hf : Follows rest := hr.mono (by decide) (by decide)
      have wildcard := (own.opens hf).leadingWildcard
      have read := own.expr rest (hr.mono (List.Subset.refl _) (by decide))
      simp only [argument, run_bind, run_ahead, wildcard, read, unnamed]
      cases x with
      | wildcard names => exact absurd rfl (plain names)
      | _ => rfl

variable {args : List Argument} {groups : List (List Token)}

theorem unbracketed_arguments (h : List.Forall₂ (ReadsArgument g) groups args) :
    ∀ ts ∈ groups, Token.symbol .leftBracket ∉ ts :=
  unbracketed_groups h ReadsArgument.unbracketed

theorem starts_arguments (h : List.Forall₂ (ReadsArgument g) groups args) (nonempty : groups ≠ [])
    (hf : Follows rest) : StartsArguments (commaJoined groups ++ rest) := by
  cases h with
  | nil => exact absurd rfl nonempty
  | @cons ts a groups args own others =>
      cases groups with
      | nil => exact own.starts hf
      | cons us groups =>
          have bracket := unbracketed_commaJoined (unbracketed_arguments others)
          have goesOn : Follows (.symbol .comma :: (commaJoined (us :: groups) ++ rest)) :=
            before_symbol (by decide) (by simp [bracket, hf.unbracketed])
          simpa [commaJoined] using own.starts goesOn

/-- `DISTINCT`, if a call or a query has it. -/
def distinctTokens (distinct : Bool) : List Token :=
  if distinct then [.word "DISTINCT" false] else []

theorem argumentList_of_reads {distinct : Bool} (h : List.Forall₂ (ReadsArgument g) groups args)
    (nonempty : distinct = true → groups ≠ [])
    (unread : ∀ rest, g.expr (.symbol .star :: rest) = .error .unexpected)
    (hb : Token.symbol .leftBracket ∉ rest) :
    argumentList g
        (distinctTokens distinct ++ (commaJoined groups ++ .symbol .rightParen :: rest)) =
      .ok ((if distinct then some "DISTINCT" else none, args, []), rest) := by
  have closing :
      jsonNulls (.symbol .rightParen :: rest) = .ok ([], .symbol .rightParen :: rest) := by
    simp [jsonNulls]
  by_cases empty : groups = []
  · subst empty
    cases h
    cases distinct with
    | true => exact absurd rfl (nonempty rfl)
    | false =>
        simp [distinctTokens, commaJoined, argumentList, closing, joinPieces]
  · have starts : StartsArguments (commaJoined groups ++ .symbol .rightParen :: rest) :=
      starts_arguments h empty (before_symbol (by decide) (by simpa using hb))
    have items := commaSeparated_of_reads (h.imp fun _ _ own => own.reads unread) empty
      (unbracketed_arguments h) (by decide)
      (before_symbol (s := .rightParen) (by decide) (by simpa using hb)) rfl
    have overflow : onOverflow g (.symbol .rightParen :: rest) =
        .ok ([], .symbol .rightParen :: rest) := by
      simp [onOverflow]
    cases distinct with
    | false =>
        simp only [distinctTokens, Bool.false_eq_true, if_false, List.nil_append, argumentList,
          run_bind, starts.nulls, starts.goesOn, run_ite, starts.all, starts.distinct,
          Bool.and_self, items, keywords_symbol, run_pure, keyword, overflow, closing,
          expect_self]
        rfl
    | true =>
        have nulls : ∀ ts, jsonNulls (.word "DISTINCT" false :: ts) =
            .ok ([], .word "DISTINCT" false :: ts) := by
          intro ts
          simp only [jsonNulls, run_bind, run_ite,
            keywords_other (show isCapital "DISTINCT" = true by decide)
              (show "DISTINCT" ≠ "ABSENT" by decide),
            keywords_other (show isCapital "DISTINCT" = true by decide)
              (show "DISTINCT" ≠ "NULL" by decide), Bool.false_eq_true, if_false, run_pure]
        have all : ∀ ts, keywords ["ALL"] (.word "DISTINCT" false :: ts) = .ok (false, _) :=
          fun ts => keywords_other (by decide) (by decide)
        have found : ∀ ts, keywords ["DISTINCT"] (.word "DISTINCT" false :: ts) = .ok (true, ts) :=
          fun ts => keyword_self (by decide)
        simp only [distinctTokens, if_true, List.cons_append, List.nil_append, argumentList,
          run_bind, nulls, accept_cons, reduceCtorEq, run_ite, Bool.false_eq_true, if_false,
          keyword, all, found, Bool.and_true, items, keywords_symbol, run_pure, overflow, closing,
          expect_self]
        rfl

theorem callRest_of_list {quantifier : Option String}
    (read : argumentList g ts = .ok ((quantifier, args, []), rest)) (hf : Follows rest) :
    callRest g lead [word] false (.symbol .leftParen :: ts) =
      .ok (.call [word] false (.list quantifier) args [] [] none none [], rest) := by
  have within : keywords ["WITHIN", "GROUP"] rest = .ok (false, rest) := hf.keywords (by decide)
  have filter : keyword "FILTER" rest = .ok (false, rest) := hf.keyword (by decide)
  have nulls : oneOf ["RESPECT", "IGNORE"] rest = .ok (none, rest) := hf.oneOf (by decide)
  have window : keyword "OVER" rest = .ok (false, rest) := hf.keyword (by decide)
  simp only [callRest, run_bind, expect_self, read, within, filter, nulls, window, run_ite,
    Bool.false_eq_true, if_false, run_pure]

theorem Leads.call {distinct : Bool} (hk : (Token.word w p).keyword?.getD "" ∉ callConstructs)
    (h : List.Forall₂ (ReadsArgument g) groups args) (nonempty : distinct = true → groups ≠ [])
    (unread : ∀ rest, g.expr (.symbol .star :: rest) = .error .unexpected) :
    Leads g edge
      (.word w p :: .symbol .leftParen ::
        (distinctTokens distinct ++ (commaJoined groups ++ [.symbol .rightParen])))
      (.call [wordIdent w p] false (.list (if distinct then some "DISTINCT" else none)) args [] []
        none none []) where
  opens rest hf := by
    refine .operand (openingToken_word fun h => hk ?_) ?_
    · exact List.mem_append_left _ (List.mem_append_right _ h)
    · rintro _ ⟨⟩
      exact ⟨nofun, nofun⟩
  unbracketed := by
    have := unbracketed_commaJoined (unbracketed_arguments h)
    cases distinct <;> simp [distinctTokens, this]
  reads n rest _ hf _ := by
    have bracket : Token.symbol .leftBracket ∉ distinctTokens distinct ++
        (commaJoined groups ++ .symbol .rightParen :: rest) := by
      have := unbracketed_commaJoined (unbracketed_arguments h)
      cases distinct <;> simp [distinctTokens, this, hf.unbracketed]
    have list := argumentList_of_reads h nonempty unread hf.unbracketed
    have literal := @typedLiteral_of_call _ w (leadingExpr g n) p
      (fun h => hk (List.mem_append_right _ h)) bracket
    simp only [List.cons_append, List.append_assoc, List.nil_append]
    refine @leadingExpr_word _ _ _ _ _ _ _ true literal ?_ (hf.keyword (by decide))
    simp only [wordExpr, run_bind, run_ahead, wordConstruct_call hk, run_pure, nameOrCall_call,
      callRest_of_list list hf]

/-! ### Cases -/

def caseBranch (g : Nesting) : Parse CaseBranch := do
  let condition ← g.expr
  expectKeyword "THEN"
  return ⟨condition, ← g.expr⟩

def laterBranch (g : Nesting) : Parse (Option CaseBranch) := do
  if ← keyword "WHEN" then return some (← caseBranch g) else return none

theorem caseExpr_eq (g : Nesting) : caseExpr g = (do
    let operand ←
      if ← keyword "WHEN" then pure none
      else
        let e ← g.expr
        expectKeyword "WHEN"
        pure (some e)
    let first ← caseBranch g
    let rest ← many (laterBranch g)
    let otherwise ← if ← keyword "ELSE" then pure (some (← g.expr)) else pure none
    expectKeyword "END"
    return .case operand (first :: rest) otherwise) := rfl

/-- Tokens are read as a branch of a case after its WHEN. -/
structure ReadsBranch (g : Nesting) (ts : List Token) (b : CaseBranch) : Prop where
  unbracketed : Token.symbol .leftBracket ∉ ts
  opens : ∀ rest, Follows rest → Opening (ts ++ rest)
  reads : ReadsBefore [] ["WHEN", "ELSE", "END"] (caseBranch g) ts b

theorem ReadsItem.branch (hc : ReadsItem g ts x) (hr : ReadsItem g us y) :
    ReadsBranch g (ts ++ .word "THEN" false :: us) ⟨x, y⟩ where
  unbracketed := by simp [hc.unbracketed, hr.unbracketed]
  opens rest hf := by
    rw [List.append_assoc]
    exact hc.opens (before_word (by decide) (by decide)
      (List.not_mem_append hr.unbracketed hf.unbracketed))
  reads rest h := by
    have condition := hc.expr (.word "THEN" false :: (us ++ rest))
      (before_word (by decide) (by decide) (List.not_mem_append hr.unbracketed h.unbracketed))
    have result := hr.expr rest (h.mono (by decide) (by decide))
    have word := @expectKeyword_self (us ++ rest) "THEN" (by decide)
    simp only [caseBranch, run_bind, List.append_assoc, List.cons_append, condition, word, result,
      run_pure]

variable {branches : List CaseBranch}

/-- The branches of a case, each after its WHEN. -/
def whenTokens (groups : List (List Token)) : List Token :=
  groups.flatMap (Token.word "WHEN" false :: ·)

@[simp] theorem whenTokens_nil : whenTokens [] = [] := rfl

@[simp] theorem whenTokens_cons :
    whenTokens (ts :: groups) = .word "WHEN" false :: (ts ++ whenTokens groups) := by
  simp [whenTokens]

theorem unbracketed_whenTokens (h : List.Forall₂ (ReadsBranch g) groups branches) :
    Token.symbol .leftBracket ∉ whenTokens groups := by
  induction h with
  | nil => exact List.not_mem_nil
  | @cons ts b groups branches own _ ih =>
      simp [own.unbracketed, ih]

theorem before_whenTokens (h : List.Forall₂ (ReadsBranch g) groups branches)
    (hr : Before [] ["WHEN", "ELSE", "END"] rest) :
    Before [] ["WHEN", "ELSE", "END"] (whenTokens groups ++ rest) := by
  cases h with
  | nil => exact hr
  | @cons ts b groups branches own others =>
      rw [whenTokens_cons]
      refine before_word (by decide) (by decide) ?_
      simp [own.unbracketed, unbracketed_whenTokens others, hr.unbracketed]

theorem gives_branches (h : List.Forall₂ (ReadsBranch g) groups branches)
    (hr : Before [] ["ELSE", "END"] rest) :
    Gives (laterBranch g) (whenTokens groups ++ rest) branches rest := by
  induction h with
  | nil =>
      have other : keyword "WHEN" rest = .ok (false, rest) := hr.keyword (by decide)
      exact .stop (by simp only [whenTokens_nil, List.nil_append, laterBranch, run_bind, other,
        run_ite, Bool.false_eq_true, if_false, run_pure])
  | @cons ts b groups branches own others ih =>
      have found : ∀ ts, keyword "WHEN" (.word "WHEN" false :: ts) = .ok (true, ts) :=
        fun ts => keyword_self (by decide)
      have read := own.reads (whenTokens groups ++ rest)
        (before_whenTokens others (hr.mono (List.Subset.refl _) (by decide)))
      refine @Gives.more _ _ _ _ _ (whenTokens groups ++ rest) _ ?_ ?_ ih
      · simp only [whenTokens_cons, List.cons_append, List.append_assoc, laterBranch, run_bind,
          found, run_ite, if_true, read, run_pure]
      · simp only [whenTokens_cons, List.cons_append, List.append_assoc, List.length_cons,
          List.length_append]
        omega

/-- Tokens are read as an optional expression after some keyword, or there are none. -/
inductive ReadsOption (g : Nesting) (words : List Token) : List Token → Option Expr → Prop where
  | none : ReadsOption g words [] none
  | some {ts : List Token} {x : Expr} : ReadsItem g ts x →
      ReadsOption g words (words ++ ts) (some x)

theorem ReadsOption.unbracketed {words : List Token} {o : Option Expr}
    (h : ReadsOption g words ts o) (hw : Token.symbol .leftBracket ∉ words) :
    Token.symbol .leftBracket ∉ ts := by
  cases h with
  | none => exact List.not_mem_nil
  | some own => exact List.not_mem_append hw own.unbracketed

theorem Leads.case {operand otherwise : Option Expr} {b : CaseBranch} {os es : List Token}
    (ho : ReadsOption g [] os operand) (hb : ReadsBranch g ts b)
    (h : List.Forall₂ (ReadsBranch g) groups branches)
    (he : ReadsOption g [.word "ELSE" false] es otherwise) :
    Leads g edge
      (.word "CASE" false :: (os ++ (whenTokens (ts :: groups) ++ (es ++ [.word "END" false]))))
      (.case operand (b :: branches) otherwise) where
  opens rest hf := by
    refine .operand (openingToken_capital (by decide) (by decide)) ?_
    have when_ : OpeningToken (.word "CASE" false) := openingToken_capital (by decide) (by decide)
    cases ho with
    | none =>
        rintro _ ⟨⟩
        refine ⟨nofun, ?_⟩
        rw [keyword?_capital (by decide)]
        decide
    | some own =>
        have next : Follows (whenTokens (ts :: groups) ++ (es ++ [.word "END" false]) ++ rest) := by
          rw [whenTokens_cons]
          refine before_word (by decide) (by decide) ?_
          simp [hb.unbracketed, unbracketed_whenTokens h, he.unbracketed (by simp),
            hf.unbracketed]
        have := (own.opens next).goesOn
        simpa using this
  unbracketed := by
    simp [hb.unbracketed, unbracketed_whenTokens h, ho.unbracketed (by simp),
      he.unbracketed (by simp)]
  reads n rest _ hf _ := by
    have ending : Before [] ["ELSE", "END"] (es ++ .word "END" false :: rest) := by
      cases he with
      | none => exact before_word (by decide) (by decide) hf.unbracketed
      | some own =>
          exact before_word (by decide) (by decide) (by simp [own.unbracketed, hf.unbracketed])
    have unbracketed := unbracketed_whenTokens h
    have later := many_of_gives (gives_branches h ending)
    have first := hb.reads _ (before_whenTokens h (ending.mono (List.Subset.refl _) (by decide)))
    have bracket : Token.symbol .leftBracket ∉ os ++ .word "WHEN" false ::
        (ts ++ (whenTokens groups ++ (es ++ .word "END" false :: rest))) := by
      simp [hb.unbracketed, unbracketed, ho.unbracketed (by simp), he.unbracketed (by simp),
        hf.unbracketed]
    have when_ : ∀ ts, keyword "WHEN" (.word "WHEN" false :: ts) = .ok (true, ts) :=
      fun ts => keyword_self (by decide)
    have whens : ∀ ts, expectKeyword "WHEN" (.word "WHEN" false :: ts) = .ok ((), ts) :=
      fun ts => expectKeyword_self (by decide)
    have else_ : ∀ ts, keyword "ELSE" (.word "ELSE" false :: ts) = .ok (true, ts) :=
      fun ts => keyword_self (by decide)
    have none_ : keyword "ELSE" (.word "END" false :: rest) = .ok (false, _) :=
      keywords_other (by decide) (by decide)
    have end_ := @expectKeyword_self rest "END" (by decide)
    simp only [whenTokens_cons, List.cons_append, List.append_assoc, List.nil_append]
    refine leadingExpr_construct (keyword?_capital (by decide)) (by decide) bracket ?_
      (hf.keyword (by decide))
    rw [wordConstruct_case, run_bind, caseExpr_eq]
    have result : ∀ {ts x}, ReadsItem g ts x →
        g.expr (ts ++ .word "END" false :: rest) = .ok (x, .word "END" false :: rest) :=
      fun own => own.expr _ (before_word (by decide) (by decide) hf.unbracketed)
    cases ho with
    | none =>
        cases he with
        | none =>
            simp only [List.nil_append, run_bind, when_, run_ite, if_true, run_pure]
              at first later ⊢
            simp only [first, later, none_, Bool.false_eq_true, if_false, end_]
        | some own =>
            simp only [List.nil_append, List.cons_append, run_bind, when_, run_ite, if_true,
              run_pure] at first later ⊢
            simp only [first, later, else_, if_true, result own, end_]
    | @some us y operand =>
        have next := operand.expr (.word "WHEN" false ::
            (ts ++ (whenTokens groups ++ (es ++ .word "END" false :: rest))))
          (before_word (by decide) (by decide) (by
            simp [hb.unbracketed, unbracketed, he.unbracketed (by simp), hf.unbracketed]))
        have starts : Opening (us ++ .word "WHEN" false ::
            (ts ++ (whenTokens groups ++ (es ++ .word "END" false :: rest)))) :=
          operand.opens (before_word (by decide) (by decide) (by
            simp [hb.unbracketed, unbracketed, he.unbracketed (by simp), hf.unbracketed]))
        have opens := starts.keyword (k := "WHEN") (by decide)
        cases he with
        | none =>
            simp only [List.nil_append] at first later next opens ⊢
            simp only [run_bind, opens, run_ite, Bool.false_eq_true, if_false, next, whens,
              run_pure, first, later, none_, end_]
        | some own =>
            simp only [List.nil_append, List.cons_append] at first later next opens ⊢
            simp only [run_bind, opens, run_ite, Bool.false_eq_true, if_false, next, whens,
              run_pure, first, later, else_, if_true, result own, end_]

end ReportSql.Sql.Grammar
