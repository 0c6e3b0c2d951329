import ReportSql.Proofs.TypedLiterals
import ReportSql.Sql.Grammar

/-!
Reading operators. An expression is read up to an operator that does not bind tightly enough; the
tokens of one are read as it where what follows does not go on with its last operand.
-/
namespace ReportSql.Sql.Grammar

open Parse
open Text (isCapital)

/-! ### What follows an expression -/

/-- The symbols that an operand is followed by. -/
def operandSymbols : List Symbol :=
  [.comma, .rightParen, .eq, .neq, .lt, .gt, .ltEq, .gtEq, .plus, .minus, .star, .slash, .percent,
   .concat, .doubleColon]

/-- The keywords that an operand is followed by, in the order of all keywords. -/
def operandWords : List String :=
  ["AND", "AS", "ASC", "BETWEEN", "CROSS", "DESC", "ELSE", "END", "FROM", "FULL", "GROUP",
   "HAVING", "ILIKE", "IN", "INNER", "IS", "LEFT", "LIKE", "LIMIT", "NOT", "NULLS", "OFFSET", "OR",
   "ORDER", "RIGHT", "THEN", "WHEN", "WHERE"]

/-- What an operand is followed by. -/
abbrev Follows (rest : List Token) : Prop := Before operandSymbols operandWords rest

/-- The keywords that tell something else from an expression. -/
def openingWords : List String :=
  ["SELECT", "WITH", "ALL", "DISTINCT", "ANY", "SOME", "WHEN", "ON"]

/-- What an expression starts with: no word that tells something else from it, and no star. -/
structure OpeningToken (t : Token) : Prop where
  symbol : ∀ s ∈ [Symbol.rightParen, .star, .period], t ≠ .symbol s
  keyword : ∀ k ∈ openingWords, t.keyword? ≠ some k

/-- Tokens that go on with an expression, which is followed by others. -/
inductive Opening : List Token → Prop where
  | operand {t ts} : OpeningToken t → (∀ u ∈ ts.head?, u ≠ .symbol .period ∧
      u.keyword? ≠ some "ON") → Opening (t :: ts)
  | qualified {table column ts} {p q : Bool} : OpeningToken (.word table p) → Follows ts →
      Opening (.word table p :: .symbol .period :: .word column q :: ts)

variable {g : Nesting} {ts us rest more : List Token} {x y l r : Expr} {k w : String} {s : Symbol}
  {level edge : Nat}

theorem Opening.head (h : Opening ts) : ∃ t more, ts = t :: more ∧ OpeningToken t := by
  cases h with
  | operand ht _ => exact ⟨_, _, rfl, ht⟩
  | qualified ht _ => exact ⟨_, _, rfl, ht⟩

theorem Opening.keyword (h : Opening ts) (hk : k ∈ openingWords) :
    keyword k ts = .ok (false, ts) := by
  obtain ⟨t, more, rfl, ht⟩ := h.head
  exact keywords_of_ne (ht.keyword k hk)

theorem Opening.accept (h : Opening ts) (hs : s ∈ [Symbol.rightParen, .star, .period]) :
    accept s ts = .ok (false, ts) := by
  obtain ⟨t, more, rfl, ht⟩ := h.head
  rw [accept_cons, if_neg (ht.symbol s hs)]

theorem Opening.oneOf (h : Opening ts) {ks : List String}
    (hk : ∀ k ∈ ks, k ∈ openingWords) : oneOf ks ts = .ok (none, ts) := by
  obtain ⟨t, more, rfl, ht⟩ := h.head
  exact oneOf_of_ne fun k hks => ht.keyword k (hk k hks)

theorem Opening.atQuery (h : Opening ts) : atQuery ts = .ok (false, ts) := by
  obtain ⟨t, more, rfl, ht⟩ := h.head
  have select := isKeyword_of_ne (ht.keyword "SELECT" (by decide))
  have ctes := isKeyword_of_ne (ht.keyword "WITH" (by decide))
  simp [Parse.atQuery, atKeyword, select, ctes]

/-- No two words that start a treatment of NULL stand first. -/
theorem Opening.jsonNulls (h : Opening ts) : jsonNulls ts = .ok ([], ts) := by
  have words : ∀ k, keywords [k, "ON", "NULL"] ts = .ok (false, ts) := by
    intro k
    have none : afterKeywords? [k, "ON", "NULL"] ts = none := by
      cases h with
      | @operand t ts _ next =>
          simp only [afterKeywords?]
          split
          · cases ts with
            | nil => rfl
            | cons u ts =>
                simp [afterKeywords?, isKeyword_of_ne (next u rfl).2]
          · rfl
      | qualified _ _ =>
          simp only [afterKeywords?]
          split
          · simp [Token.isKeyword, Token.keyword?]
          · rfl
    simp only [keywords, none]
  simp [Grammar.jsonNulls, words]

theorem Opening.leadingWildcard (h : Opening ts) :
    leadingWildcard ts = .ok (none, ts) := by
  cases h with
  | @operand t ts ht next =>
      have star : t ≠ .symbol .star := ht.symbol .star (by decide)
      cases ts with
      | nil => simp [Grammar.leadingWildcard, star]
      | cons u ts =>
          have period : u ≠ .symbol .period := (next u rfl).1
          simp [Grammar.leadingWildcard, star, period]
  | @qualified table column ts p q ht after =>
      have ends := after.accept (s := .period) (by decide)
      simp [Grammar.leadingWildcard, ident, leadingWildcard.more, ends]

/-! ### Expressions between operators -/

/-- One operator that binds more tightly than a given precedence, if one follows. -/
def operatorStep (g : Nesting) (precedence : Nat) (e : Expr) : Parse (Option Expr) := do
  let p := nextPrecedence (← ahead)
  if precedence < p then return some (← operatorRest g e p) else return none

theorem exprAbove_eq (g : Nesting) (precedence : Nat) :
    exprAbove g precedence = (do
      let first ← leadingExpr g ((← ahead).length + 1)
      iterate (operatorStep g precedence) first) := rfl

/-- Tokens are read as an expression and the operators after it go on from there, except for those
that bind more tightly than its right edge. -/
structure Reads (g : Nesting) (level edge : Nat) (ts : List Token) (x : Expr) : Prop where
  opens : ∀ rest, Follows rest → Opening (ts ++ rest)
  unbracketed : Token.symbol .leftBracket ∉ ts
  reads : ∀ p rest y more, p < level → Follows rest → nextPrecedence rest ≤ edge →
    Steps (operatorStep g p) x rest y more → exprAbove g p (ts ++ rest) = .ok (y, more)

/-- Tokens are read as an expression at the level inside, up to operators that do not bind tightly
enough. -/
structure Inside (g : Nesting) (level edge : Nat) (ts : List Token) (x : Expr) : Prop where
  opens : ∀ rest, Follows rest → Opening (ts ++ rest)
  unbracketed : Token.symbol .leftBracket ∉ ts
  reads : ∀ p rest, p < level → Follows rest → nextPrecedence rest ≤ p →
    nextPrecedence rest ≤ edge → g.exprAbove p (ts ++ rest) = .ok (x, rest)

theorem Reads.inside {n : Nat} (h : Reads (nesting n) level edge ts x) :
    Inside (nesting (n + 1)) level edge ts x where
  opens := h.opens
  unbracketed := h.unbracketed
  reads p rest hp hf hn he := by
    refine h.reads p rest x rest hp hf he (.stop ?_)
    simp only [operatorStep, run_bind, run_ahead, run_ite, if_neg (Nat.not_lt.mpr hn), run_pure]

/-- An operator and what stands to its right take an expression on from its end. -/
theorem Reads.operator {tail : List Token} {precedence edge' : Nat}
    (h : Reads g level edge ts l) (ht : tail ≠ [])
    (follows : ∀ rest, Follows rest → Follows (tail ++ rest))
    (binds : ∀ rest, nextPrecedence (tail ++ rest) = precedence) (hp : precedence ≤ edge)
    (hb : Token.symbol .leftBracket ∉ tail)
    (read : ∀ rest, Follows rest → nextPrecedence rest ≤ edge' →
      operatorRest g l precedence (tail ++ rest) = .ok (x, rest)) :
    Reads g (min precedence level) edge' (ts ++ tail) x where
  opens rest hf := by
    rw [List.append_assoc]
    exact h.opens _ (follows rest hf)
  unbracketed := by simp [h.unbracketed, hb]
  reads p rest y more hlt hf he steps := by
    have own : p < precedence := by omega
    rw [List.append_assoc]
    refine h.reads p _ y more (by omega) (follows rest hf) (by rw [binds]; exact hp) ?_
    refine .more (b := x) ?_ ?_ steps
    · simp only [operatorStep, run_bind, run_ahead, binds, run_ite, if_pos own, read rest hf he,
        run_pure]
    · have := List.length_pos_of_ne_nil ht
      simp only [List.length_append]
      omega

theorem binaryRest_inside {op : BinaryOp} {p : Nat} (h : Inside g level edge ts r)
    (hp : p < level) (hf : Follows rest) (he : nextPrecedence rest ≤ min p edge) :
    binaryRest g l op p (ts ++ rest) = .ok (.binary l op r, rest) := by
  have words : oneOf ["ANY", "ALL", "SOME"] (ts ++ rest) = .ok (none, ts ++ rest) :=
    (h.opens rest hf).oneOf (by decide)
  simp only [binaryRest, run_bind, words, h.reads p rest hp hf (by omega) (by omega), run_pure]

/-- The symbols of the operators that trees have. -/
def binarySymbols : List Symbol :=
  [.eq, .neq, .lt, .gt, .ltEq, .gtEq, .plus, .minus, .star, .slash, .percent, .concat]

theorem Reads.binary {op : BinaryOp} {level' edge' : Nat} (hs : s ∈ binarySymbols)
    (ho : symbolOperator? s = some op) (hl : Reads g level edge ts l)
    (hr : Inside g level' edge' us r) (left : symbolPrecedence s ≤ edge)
    (right : symbolPrecedence s < level') :
    Reads g (min (symbolPrecedence s) level) (min (symbolPrecedence s) edge')
      (ts ++ .symbol s :: us) (.binary l op r) := by
  have operand : s ∈ operandSymbols := (show ∀ s ∈ binarySymbols, s ∈ operandSymbols by decide) s hs
  have bracket : Token.symbol .leftBracket ∉ .symbol s :: us := by
    simp only [List.mem_cons, not_or]
    refine ⟨?_, hr.unbracketed⟩
    rintro ⟨⟩
    exact absurd hs (by decide)
  refine hl.operator (List.cons_ne_nil _ _) (fun rest hf => ?_) (fun _ => rfl) left bracket
    fun rest hf he => ?_
  · exact before_symbol operand (List.not_mem_append bracket hf.unbracketed)
  · simp only [List.cons_append, operatorRest, run_bind, binaryOperator, run_peek, List.head?_cons,
      ho, run_skip, List.tail_cons, run_pure, binaryRest_inside hr right hf he]

/-- The connectives, with how tightly they bind. -/
def connectives : List (String × BinaryOp × Nat) := [("AND", .and, 20), ("OR", .or, 10)]

theorem Reads.connective {op : BinaryOp} {precedence level' edge' : Nat}
    (hw : (w, op, precedence) ∈ connectives) (hl : Reads g level edge ts l)
    (hr : Inside g level' edge' us r) (left : precedence ≤ edge) (right : precedence < level') :
    Reads g (min precedence level) (min precedence edge') (ts ++ .word w false :: us)
      (.binary l op r) := by
  have capital : isCapital w = true :=
    (show ∀ c ∈ connectives, isCapital c.1 = true by decide) _ hw
  have operand : w ∈ operandWords :=
    (show ∀ c ∈ connectives, c.1 ∈ operandWords by decide) _ hw
  have bracket : Token.symbol .leftBracket ∉ .word w false :: us := by
    simpa using hr.unbracketed
  refine hl.operator (List.cons_ne_nil _ _) (fun rest hf => ?_) (fun rest => ?_) left bracket
    fun rest hf he => ?_
  · exact before_word operand capital (List.not_mem_append hr.unbracketed hf.unbracketed)
  · simp only [connectives, List.mem_cons, Prod.mk.injEq, List.not_mem_nil, or_false] at hw
    rcases hw with ⟨rfl, -, rfl⟩ | ⟨rfl, -, rfl⟩ <;>
      simp [nextPrecedence, keyword?_capital capital, testKeywords]
  · have found : binaryOperator (.word w false :: us ++ rest) = .ok (some op, us ++ rest) := by
      simp only [connectives, List.mem_cons, Prod.mk.injEq, List.not_mem_nil, or_false] at hw
      rcases hw with ⟨rfl, rfl, -⟩ | ⟨rfl, rfl, -⟩ <;>
        simp [binaryOperator, keyword?_capital capital]
    simp only [operatorRest, run_bind, found, binaryRest_inside hr right hf he]

/-! ### Tests -/

/-- `NOT`, if a test is negated. -/
def notTokens (negated : Bool) : List Token := if negated then [.word "NOT" false] else []

variable {negated : Bool}

theorem unbracketed_notTokens : Token.symbol .leftBracket ∉ notTokens negated := by
  cases negated <;> decide

/-- The tests that trees have. -/
def treeTests : List String := ["IN", "BETWEEN", "LIKE", "ILIKE"]

theorem follows_test (hk : k ∈ treeTests) (hb : Token.symbol .leftBracket ∉ rest) :
    Follows (notTokens negated ++ .word k false :: rest) := by
  have capital := (show ∀ k ∈ treeTests, isCapital k = true by decide) k hk
  have operand := (show ∀ k ∈ treeTests, k ∈ operandWords by decide) k hk
  cases negated with
  | false => exact before_word operand capital hb
  | true => exact before_word (by decide) (by decide) (by simpa using hb)

theorem nextPrecedence_test (hk : k ∈ treeTests) :
    nextPrecedence (notTokens negated ++ .word k false :: rest) = testPrecedence := by
  have capital := (show ∀ k ∈ treeTests, isCapital k = true by decide) k hk
  have test := (show ∀ k ∈ treeTests, testKeywords.contains k = true by decide) k hk
  cases negated with
  | false =>
      show nextPrecedence (.word k false :: rest) = testPrecedence
      simp only [nextPrecedence, keyword?_capital capital, test, if_true]
      rfl
  | true =>
      show nextPrecedence (.word "NOT" false :: .word k false :: rest) = testPrecedence
      have no : testKeywords.contains "NOT" = false := by decide
      simp only [nextPrecedence, keyword?_capital (show isCapital "NOT" = true by decide), no,
        Bool.false_eq_true, if_false, List.head?_cons, Option.bind_some, keyword?_capital capital,
        Option.any_some, test, if_true]
      rfl

theorem operatorRest_test {p : Nat} (hk : k ∈ treeTests) :
    operatorRest g x p (notTokens negated ++ .word k false :: rest) =
      testRest g x (notTokens negated ++ .word k false :: rest) := by
  have capital := (show ∀ k ∈ treeTests, isCapital k = true by decide) k hk
  have other : ∀ (w : String) (more : List Token), isCapital w = true →
      w ∉ ["AND", "OR", "XOR", "OPERATOR", "IS", "AT"] →
      operatorRest g x p (.word w false :: more) = testRest g x (.word w false :: more) := by
    intro w more hw hn
    simp only [List.mem_cons, List.not_mem_nil, or_false, not_or] at hn
    simp [operatorRest, binaryOperator, keyword?_capital hw, hn]
  cases negated with
  | false =>
      exact other k rest capital
        ((show ∀ k ∈ treeTests, k ∉ ["AND", "OR", "XOR", "OPERATOR", "IS", "AT"] by decide) k hk)
  | true => exact other "NOT" _ (by decide) (by decide)

theorem keyword_not (hk : isCapital k = true) (hn : k ≠ "NOT") :
    keyword "NOT" (notTokens negated ++ .word k false :: rest) =
      .ok (negated, .word k false :: rest) := by
  cases negated with
  | false => exact keywords_other hk hn
  | true => exact keyword_self (by decide)

theorem testRest_in :
    testRest g x (notTokens negated ++ .word "IN" false :: rest) = inRest g x negated rest := by
  have negation := @keyword_not rest "IN" negated (by decide) (by decide)
  have regexp : keyword "REGEXP" (.word "IN" false :: rest) = .ok (false, _) :=
    keywords_other (by decide) (by decide)
  have rlike : keyword "RLIKE" (.word "IN" false :: rest) = .ok (false, _) :=
    keywords_other (by decide) (by decide)
  have test := @oneOf_self rest "IN" testKeywords (by decide) (by decide)
  simp only [testRest, run_bind, negation, regexp, rlike, Bool.or_self, run_ite,
    Bool.false_eq_true, if_false, test]

theorem Reads.like (negated ignoresCase : Bool) {level' edge' : Nat} (hl : Reads g level edge ts l)
    (hr : Inside g level' edge' us r) (left : testPrecedence ≤ edge)
    (right : testPrecedence < level') :
    Reads g (min testPrecedence level) (min testPrecedence edge')
      (ts ++ (notTokens negated ++ .word (if ignoresCase then "ILIKE" else "LIKE") false :: us))
      (.like l r ignoresCase false negated none) := by
  generalize hk : (if ignoresCase then "ILIKE" else "LIKE") = k
  have test : k ∈ treeTests := by
    cases ignoresCase <;> subst hk <;> decide
  have capital := (show ∀ k ∈ treeTests, isCapital k = true by decide) k test
  have bracket : Token.symbol .leftBracket ∉ .word k false :: us := by simpa using hr.unbracketed
  refine hl.operator (by simp) (fun rest hf => ?_) (fun rest => ?_) left
    (List.not_mem_append unbracketed_notTokens bracket) fun rest hf he => ?_
  · rw [List.append_assoc]
    exact follows_test test (List.not_mem_append hr.unbracketed hf.unbracketed)
  · rw [List.append_assoc]
    exact nextPrecedence_test test
  · have negation := @keyword_not (us ++ rest) k negated capital (by
      cases ignoresCase <;> subst hk <;> decide)
    have regexp : keyword "REGEXP" (.word k false :: (us ++ rest)) = .ok (false, _) :=
      keywords_other capital (by cases ignoresCase <;> subst hk <;> decide)
    have rlike : keyword "RLIKE" (.word k false :: (us ++ rest)) = .ok (false, _) :=
      keywords_other capital (by cases ignoresCase <;> subst hk <;> decide)
    have found := @oneOf_self (us ++ rest) k testKeywords capital
      (by cases ignoresCase <;> subst hk <;> decide)
    have any := (hr.opens rest hf).keyword (k := "ANY") (by decide)
    have escape : keyword "ESCAPE" rest = .ok (false, rest) := hf.keyword (by decide)
    rw [List.append_assoc, List.cons_append, operatorRest_test test]
    simp only [testRest, run_bind, negation, regexp, rlike, Bool.or_self, run_ite,
      Bool.false_eq_true, if_false, found]
    have pattern := hr.reads testPrecedence rest right hf (by omega) (by omega)
    cases ignoresCase <;> subst hk <;> simp [any, pattern, escapeText, escape]

theorem Reads.between {low high : Expr} {lows highs : List Token}
    {level₁ edge₁ level₂ edge₂ : Nat} (negated : Bool) (hx : Reads g level edge ts x)
    (hl : Inside g level₁ edge₁ lows low) (hh : Inside g level₂ edge₂ highs high)
    (left : testPrecedence ≤ edge) (middle : testPrecedence < level₁) (ends : 20 ≤ edge₁)
    (right : testPrecedence < level₂) :
    Reads g (min testPrecedence level) (min testPrecedence edge₂)
      (ts ++ (notTokens negated ++ .word "BETWEEN" false :: (lows ++ .word "AND" false :: highs)))
      (.between x low high negated) := by
  have bracket : Token.symbol .leftBracket ∉
      .word "BETWEEN" false :: (lows ++ .word "AND" false :: highs) := by
    simp [hl.unbracketed, hh.unbracketed]
  refine hx.operator (by simp) (fun rest hf => ?_) (fun rest => ?_) left
    (List.not_mem_append unbracketed_notTokens bracket) fun rest hf he => ?_
  · rw [List.append_assoc]
    refine follows_test (by decide) ?_
    simp [hl.unbracketed, hh.unbracketed, hf.unbracketed]
  · rw [List.append_assoc]
    exact nextPrecedence_test (by decide)
  · have inner : Follows (.word "AND" false :: (highs ++ rest)) :=
      before_word (by decide) (by decide) (List.not_mem_append hh.unbracketed hf.unbracketed)
    have connective : nextPrecedence (.word "AND" false :: (highs ++ rest)) = 20 := by
      simp [nextPrecedence, keyword?_capital (show isCapital "AND" = true by decide), testKeywords]
    have negation := @keyword_not (lows ++ .word "AND" false :: (highs ++ rest)) "BETWEEN" negated
      (by decide) (by decide)
    have regexp : keyword "REGEXP" (.word "BETWEEN" false ::
        (lows ++ .word "AND" false :: (highs ++ rest))) = .ok (false, _) :=
      keywords_other (by decide) (by decide)
    have rlike : keyword "RLIKE" (.word "BETWEEN" false ::
        (lows ++ .word "AND" false :: (highs ++ rest))) = .ok (false, _) :=
      keywords_other (by decide) (by decide)
    have found := @oneOf_self (lows ++ .word "AND" false :: (highs ++ rest)) "BETWEEN" testKeywords
      (by decide) (by decide)
    have lower := hl.reads testPrecedence _ middle inner (by rw [connective]; decide)
      (by rw [connective]; exact ends)
    have upper := hh.reads testPrecedence rest right hf (by omega) (by omega)
    have and := @expectKeyword_self (highs ++ rest) "AND" (by decide)
    simp only [List.append_assoc, List.cons_append] at *
    rw [operatorRest_test (by decide)]
    simp only [testRest, run_bind, negation, regexp, rlike, Bool.or_self, run_ite,
      Bool.false_eq_true, if_false, found, lower, and, upper, run_pure]

/-! ### Expressions in lists -/

/-- The keywords that an expression ends before. -/
def endWords : List String :=
  ["FROM", "WHERE", "GROUP", "HAVING", "ORDER", "LIMIT", "OFFSET", "AS", "THEN", "WHEN", "ELSE",
   "END", "ASC", "DESC", "NULLS", "INNER", "LEFT", "RIGHT", "FULL", "CROSS"]

/-- What an expression ends before. -/
abbrev Ends (rest : List Token) : Prop := Before [.comma, .rightParen] endWords rest

theorem Ends.follows (h : Ends rest) : Follows rest := h.mono (by decide) (by decide)

theorem Ends.precedence (h : Ends rest) : nextPrecedence rest = 0 := by
  rcases h.cases with rfl | ⟨s, more, hs, rfl⟩ | ⟨w, more, hw, hc, rfl⟩
  · rfl
  · simp only [List.mem_cons, List.not_mem_nil, or_false] at hs
    rcases hs with rfl | rfl <;> rfl
  · have test : testKeywords.contains w = false :=
      (show ∀ w ∈ endWords, testKeywords.contains w = false by decide) w hw
    have operator : ∀ k ∈ ["COLLATE", "AT", "DIV", "XOR", "OPERATOR", "IS", "NOT", "AND", "OR"],
        w ≠ k := by
      rintro k hk rfl
      exact (show ∀ k ∈ ["COLLATE", "AT", "DIV", "XOR", "OPERATOR", "IS", "NOT", "AND", "OR"],
        k ∉ endWords by decide) w hk hw
    simp only [List.forall_mem_cons] at operator
    simp only [nextPrecedence, keyword?_capital hc, test, Bool.false_eq_true, if_false]
    split <;> simp_all

theorem Inside.expr (h : Inside g level edge ts x) (hl : 0 < level) :
    ReadsBefore [.comma, .rightParen] endWords g.expr ts x := by
  intro rest hr
  have : nextPrecedence rest = 0 := Ends.precedence hr
  exact h.reads 0 rest hl (Ends.follows hr) (by omega) (by omega)

/-- Tokens are read as an expression at the level inside where the expression ends. -/
def ReadsItem (g : Nesting) (ts : List Token) (x : Expr) : Prop :=
  ∃ level edge, 0 < level ∧ Inside g level edge ts x

theorem ReadsItem.expr (h : ReadsItem g ts x) :
    ReadsBefore [.comma, .rightParen] endWords g.expr ts x := by
  obtain ⟨level, edge, positive, own⟩ := h
  exact own.expr positive

theorem ReadsItem.opens (h : ReadsItem g ts x) (hf : Follows rest) : Opening (ts ++ rest) := by
  obtain ⟨level, edge, -, own⟩ := h
  exact own.opens rest hf

theorem ReadsItem.unbracketed (h : ReadsItem g ts x) : Token.symbol .leftBracket ∉ ts := by
  obtain ⟨level, edge, -, own⟩ := h
  exact own.unbracketed

variable {groups : List (List Token)} {xs : List Expr}

theorem unbracketed_items (h : List.Forall₂ (ReadsItem g) groups xs) :
    ∀ ts ∈ groups, Token.symbol .leftBracket ∉ ts :=
  unbracketed_groups h ReadsItem.unbracketed

theorem opens_items (h : List.Forall₂ (ReadsItem g) groups xs) (nonempty : groups ≠ [])
    (hf : Follows rest) : Opening (commaJoined groups ++ rest) := by
  cases h with
  | nil => exact absurd rfl nonempty
  | @cons ts x groups xs own others =>
      cases groups with
      | nil => exact own.opens hf
      | cons us groups =>
          have bracket := unbracketed_commaJoined (unbracketed_items others)
          have goesOn : Follows (.symbol .comma :: (commaJoined (us :: groups) ++ rest)) :=
            before_symbol (by decide) (by simp [bracket, hf.unbracketed])
          simpa [commaJoined] using own.opens goesOn

/-- Expressions between commas up to a closing parenthesis. -/
theorem commaSeparated_items (h : List.Forall₂ (ReadsItem g) groups xs) (nonempty : groups ≠ [])
    (hb : Token.symbol .leftBracket ∉ rest) :
    commaSeparated g.expr (commaJoined groups ++ .symbol .rightParen :: rest) =
      .ok (xs, .symbol .rightParen :: rest) := by
  refine commaSeparated_of_reads (h.imp fun _ _ own => own.expr) nonempty (unbracketed_items h)
    (by decide) (before_symbol (by decide) (by simpa using hb)) rfl

theorem Reads.inList (negated : Bool) (hx : Reads g level edge ts x)
    (h : List.Forall₂ (ReadsItem g) groups xs) (nonempty : groups ≠ [])
    (left : testPrecedence ≤ edge) :
    Reads g (min testPrecedence level) 200
      (ts ++ (notTokens negated ++ .word "IN" false :: .symbol .leftParen ::
        (commaJoined groups ++ [.symbol .rightParen])))
      (.inList x xs negated) := by
  have bracket := unbracketed_commaJoined (unbracketed_items h)
  refine hx.operator (by simp) (fun rest hf => ?_) (fun rest => ?_) left
    (List.not_mem_append unbracketed_notTokens (by simp [bracket])) fun rest hf _ => ?_
  · rw [List.append_assoc]
    exact follows_test (by decide) (by simp [bracket, hf.unbracketed])
  · rw [List.append_assoc]
    exact nextPrecedence_test (by decide)
  · have closing : Follows (.symbol .rightParen :: rest) :=
      before_symbol (by decide) (by simpa using hf.unbracketed)
    have query := (opens_items h nonempty closing).atQuery
    have items := commaSeparated_items h nonempty hf.unbracketed
    simp only [List.append_assoc, List.cons_append, List.nil_append]
    rw [operatorRest_test (by decide), testRest_in]
    simp only [inRest, run_bind, keyword, keywords_symbol, run_ite, Bool.false_eq_true, if_false,
      expect_self, query, items, run_pure]

/-- Tokens are read as a query at the level inside, up to a closing parenthesis. -/
structure ReadsQuery (g : Nesting) (ts : List Token) (q : Query) : Prop where
  unbracketed : Token.symbol .leftBracket ∉ ts
  reads : ReadsBefore [.rightParen] [] g.query ts q

/-- Tokens start with the keyword of a query. -/
def StartsQuery (ts : List Token) : Prop :=
  ∃ k ∈ ["SELECT", "WITH"], ∃ more, ts = .word k false :: more

theorem atQuery_of_starts (h : StartsQuery ts) : atQuery (ts ++ rest) = .ok (true, ts ++ rest) := by
  obtain ⟨k, hk, more, rfl⟩ := h
  simp only [List.mem_cons, List.not_mem_nil, or_false] at hk
  rcases hk with rfl | rfl <;>
    simp [Parse.atQuery, atKeyword, Token.isKeyword,
      keyword?_capital (show isCapital "SELECT" = true by decide),
      keyword?_capital (show isCapital "WITH" = true by decide)]

theorem Reads.inQuery {q : Query} (negated : Bool) (hx : Reads g level edge ts x)
    (h : ReadsQuery g us q) (starts : StartsQuery us) (left : testPrecedence ≤ edge) :
    Reads g (min testPrecedence level) 200
      (ts ++ (notTokens negated ++ .word "IN" false :: .symbol .leftParen ::
        (us ++ [.symbol .rightParen])))
      (.inQuery x q negated) := by
  refine hx.operator (by simp) (fun rest hf => ?_) (fun rest => ?_) left
    (List.not_mem_append unbracketed_notTokens (by simp [h.unbracketed])) fun rest hf _ => ?_
  · rw [List.append_assoc]
    exact follows_test (by decide) (by simp [h.unbracketed, hf.unbracketed])
  · rw [List.append_assoc]
    exact nextPrecedence_test (by decide)
  · have query := h.reads (.symbol .rightParen :: rest)
      (before_symbol (by decide) (by simpa using hf.unbracketed))
    simp only [List.append_assoc, List.cons_append, List.nil_append]
    rw [operatorRest_test (by decide), testRest_in]
    simp only [inRest, run_bind, keyword, keywords_symbol, run_ite, Bool.false_eq_true, if_false,
      expect_self, atQuery_of_starts starts, if_true, query, run_pure]

/-! ### Tests of NULL and of truth, and casts -/

theorem Reads.is {make : Bool → Expr} (hx : Reads g level edge ts x) (left : 40 ≤ edge)
    (read : ∀ rest, isRest g x (notTokens negated ++ .word k false :: rest) =
      .ok (make negated, rest)) :
    Reads g (min 40 level) 200 (ts ++ .word "IS" false :: (notTokens negated ++ [.word k false]))
      (make negated) := by
  have bracket : Token.symbol .leftBracket ∉
      .word "IS" false :: (notTokens negated ++ [.word k false]) := by
    simp [unbracketed_notTokens]
  refine hx.operator (List.cons_ne_nil _ _) (fun rest hf => ?_) (fun rest => ?_) left bracket
    fun rest hf _ => ?_
  · exact before_word (by decide) (by decide)
      (List.not_mem_append (by simpa using bracket) hf.unbracketed)
  · simp [nextPrecedence, keyword?_capital (show isCapital "IS" = true by decide), testKeywords]
  · have is := keyword?_capital (show isCapital "IS" = true by decide)
    have := read rest
    simp [operatorRest, binaryOperator, is, this]

theorem Reads.isNull (negated : Bool) (hx : Reads g level edge ts x) (left : 40 ≤ edge) :
    Reads g (min 40 level) 200
      (ts ++ .word "IS" false :: (notTokens negated ++ [.word "NULL" false]))
      (.isNull x negated) := by
  refine @Reads.is _ _ _ _ _ _ _ (.isNull x) hx left fun rest => ?_
  cases negated <;> rfl

theorem Reads.isTruth (negated value : Bool) (hx : Reads g level edge ts x) (left : 40 ≤ edge) :
    Reads g (min 40 level) 200
      (ts ++ .word "IS" false ::
        (notTokens negated ++ [.word (if value then "TRUE" else "FALSE") false]))
      (.isTruth x value negated) := by
  refine @Reads.is _ _ _ _ _ _ _ (.isTruth x value) hx left fun rest => ?_
  cases negated <;> cases value <;> rfl

theorem operandSymbols_closed : ∀ s ∈ [Symbol.leftParen, .period, .colon, .fatArrow, .leftBracket],
    s ∉ operandSymbols := by
  decide

theorem operandWords_known : ∀ w ∈ operandWords, keywordList.contains w = true := by
  -- looked up by their places, since comparing them with all the keywords takes long
  have places : operandWords.map some = [18, 26, 27, 47, 129, 177, 200, 206, 273, 275, 290, 294,
      308, 311, 319, 343, 367, 369, 371, 451, 461, 469, 483, 485, 592, 695, 782, 784].map
        fun i => keywordList[i]? := by
    decide +kernel
  intro w hw
  have found : some w ∈ operandWords.map some := List.mem_map_of_mem hw
  rw [places] at found
  obtain ⟨i, -, at_i⟩ := List.mem_map.mp found
  rw [List.contains_iff_mem]
  exact List.mem_of_getElem? at_i

theorem operandWords_not_typeParts : ∀ k ∈ typeParts, k ∉ operandWords := by
  decide

theorem Reads.cast {type : DataType} (hx : Reads g level edge ts x) (left : 140 ≤ edge)
    (array : (Token.word w false).keyword? ≠ some "ARRAY")
    (alone : dataType [.word w false] = .ok (type, [])) :
    Reads g (min 140 level) 200 (ts ++ [.symbol .doubleColon, .word w false])
      (.cast .suffix x type none) := by
  refine hx.operator (List.cons_ne_nil _ _) (fun rest hf => ?_) (fun rest => rfl) left (by simp)
    fun rest hf _ => ?_
  · exact before_symbol (by decide) (by simpa using hf.unbracketed)
  · have read := dataType_before hf (operandSymbols_closed _ (by decide))
      (operandSymbols_closed _ (by decide)) operandWords_not_typeParts array alone
    simp [operatorRest, binaryOperator, symbolOperator?, read]

end ReportSql.Sql.Grammar
