import ReportSql.Proofs.ReadOperands

/-!
Reading the FROM list: relations by name, derived tables, their aliases and the joins between them.
-/
namespace ReportSql.Sql.Grammar

open Parse
open Text (isCapital)

variable {g : Nesting} {ts us rest more : List Token} {x : Expr} {q : Query} {t : Table}
  {k w c : String} {p p' : Bool} {n : Nat}

/-! ### What follows a source -/

/-- The clauses that can follow a FROM list. -/
def clauseWords : List String := ["WHERE", "GROUP", "HAVING", "ORDER", "LIMIT", "OFFSET"]

def joinWords : List String := ["INNER", "LEFT", "RIGHT", "FULL", "CROSS"]

/-- What a source is followed by. -/
abbrev AfterSource (rest : List Token) : Prop :=
  Before [.comma, .rightParen] ("ON" :: (joinWords ++ clauseWords)) rest

/-- What a source with its joins is followed by. -/
abbrev AfterJoins (rest : List Token) : Prop := Before [.comma, .rightParen] clauseWords rest

theorem AfterJoins.afterSource (h : AfterJoins rest) : AfterSource rest :=
  h.mono (List.Subset.refl _) (by decide)

/-! ### Aliases -/

/-- The tokens of an alias. -/
def aliasTokens : Option (String × Bool) → List Token
  | none => []
  | some (w, p) => [.word "AS" false, .word w p]

/-- The name of an alias. -/
def aliasIdent (label : Option (String × Bool)) : Option Ident :=
  label.map fun l => wordIdent l.1 l.2

variable {label : Option (String × Bool)} {S : List Symbol} {W words : List String}

theorem unbracketed_aliasTokens : Token.symbol .leftBracket ∉ aliasTokens label := by
  cases label <;> simp [aliasTokens]

theorem optionalAlias_reads (h : Before S W rest) (hW : ∀ w ∈ W, w ∈ words) (hAS : "AS" ∉ W) :
    optionalAlias words (aliasTokens label ++ rest) = .ok (aliasIdent label, rest) := by
  cases label with
  | some l =>
      obtain ⟨w, p⟩ := l
      have found : keyword "AS" (.word "AS" false :: .word w p :: rest) = .ok (true, _) :=
        keyword_self (by decide)
      simp only [aliasTokens, List.cons_append, List.nil_append, optionalAlias, run_bind, found,
        run_ite, if_true, run_ident, run_pure]
      rfl
  | none =>
      have other : keyword "AS" rest = .ok (false, rest) := h.keyword hAS
      simp only [aliasTokens, List.nil_append, optionalAlias, run_bind, other, run_ite,
        Bool.false_eq_true, if_false, run_peek]
      rcases h.cases with rfl | ⟨s, more, hs, rfl⟩ | ⟨w, more, hw, hc, rfl⟩
      · rfl
      · rfl
      · have known : words.contains (Text.upper w) = true := by
          rw [Text.upper_of_capital hc, List.contains_iff_mem]
          exact hW w hw
        simp only [List.head?_cons, known, if_true, run_pure]
        rfl

/-- The alias of a relation; it has no columns. -/
def aliasOf (label : Option (String × Bool)) : Option Alias :=
  label.map fun l => ⟨wordIdent l.1 l.2, []⟩

theorem tableAlias_reads (h : AfterSource rest) :
    tableAlias (aliasTokens label ++ rest) = .ok (aliasOf label, rest) := by
  have name := @optionalAlias_reads rest label _ _ endsRelation h (by decide) (by decide)
  have columns : aliasColumns rest = .ok ([], rest) := by
    have bare : optionalInParens (commaSeparated aliasColumn) rest = .ok (none, rest) :=
      h.optionalInParens (by decide)
    simp only [aliasColumns, run_bind, bare, run_pure, Option.getD_none]
  simp only [tableAlias, run_bind, name]
  cases label with
  | none => rfl
  | some l => simp only [aliasIdent, Option.map_some, run_bind, columns, run_pure]; rfl

/-! ### Tables -/

theorem pivots_before (h : AfterSource rest) : pivots g t rest = .ok (t, rest) := by
  have pivot : keyword "PIVOT" rest = .ok (false, rest) := h.keyword (by decide)
  have unpivot : keyword "UNPIVOT" rest = .ok (false, rest) := h.keyword (by decide)
  refine iterate_of_steps (.stop ?_)
  simp only [run_bind, pivot, unpivot, run_ite, Bool.false_eq_true, if_false, run_pure]

/-- What a name in a FROM list is followed by. -/
abbrev AfterTableName (rest : List Token) : Prop :=
  Before [.comma, .rightParen] ("AS" :: "ON" :: (joinWords ++ clauseWords)) rest

theorem afterTableName (h : AfterSource rest) : AfterTableName (aliasTokens label ++ rest) := by
  cases label with
  | none => exact h.mono (List.Subset.refl _) (List.subset_cons_self _ _)
  | some l => exact before_word (by decide) (by decide) (by simpa using h.unbracketed)

theorem namedTable_reads {names : List Ident} (h : AfterSource rest)
    (read : path (ts ++ (aliasTokens label ++ rest)) = .ok (names, aliasTokens label ++ rest)) :
    namedTable g (ts ++ (aliasTokens label ++ rest)) =
      .ok (.named names false [] false (aliasOf label) [], rest) := by
  have after := @afterTableName rest label h
  have arguments : accept .leftParen (aliasTokens label ++ rest) = .ok (false, _) :=
    after.accept (by decide)
  have ordinality : keywords ["WITH", "ORDINALITY"] (aliasTokens label ++ rest) = .ok (false, _) :=
    after.keywords (by decide)
  have hints : keyword "WITH" rest = .ok (false, rest) := h.keyword (by decide)
  simp only [namedTable, run_bind, read, arguments, run_ite, Bool.false_eq_true, if_false, run_pure,
    ordinality, tableAlias_reads h, run_ahead, hints, Option.isSome_none, Option.getD_none,
    pivots_before h]

/-- The words that no relation starts with. -/
def notRelations : List String := ["LATERAL", "TABLE", "UNNEST"]

theorem tableWithin_named (hk : (Token.word w p).keyword?.getD "" ∉ notRelations)
    (next : ∀ u ∈ ts.head?, u ≠ .symbol .leftParen) :
    tableWithin g (n + 1) (.word w p :: ts) = namedTable g (.word w p :: ts) := by
  have lateral : keyword "LATERAL" (.word w p :: ts) = .ok (false, _) :=
    keywords_of_ne (keyword?_ne_of_getD hk (by decide))
  have table : keyword "TABLE" (.word w p :: ts) = .ok (false, _) :=
    keywords_of_ne (keyword?_ne_of_getD hk (by decide))
  have unnest : keyword "UNNEST" (.word w p :: ts) = .ok (false, _) :=
    keywords_of_ne (keyword?_ne_of_getD hk (by decide))
  have unopened : ∀ k, opening k (.word w p :: ts) = .ok (false, .word w p :: ts) := by
    intro k
    cases ts with
    | nil => rfl
    | cons u ts =>
        have := next u rfl
        unfold opening
        split
        · next h =>
          cases h
          exact absurd rfl this
        · rfl
  rw [tableWithin]
  simp only [run_bind, lateral, table, unnest, unopened, accept_cons, reduceCtorEq, if_false,
    run_ite, Bool.false_eq_true]

/-- Tokens are read as a table of a FROM list. -/
structure ReadsTable (g : Nesting) (ts : List Token) (t : Table) : Prop where
  unbracketed : Token.symbol .leftBracket ∉ ts
  reads : ∀ rest, AfterSource rest → table g (ts ++ rest) = .ok (t, rest)

theorem ReadsTable.named (hk : (Token.word w p).keyword?.getD "" ∉ notRelations) :
    ReadsTable g (.word w p :: aliasTokens label)
      (.named [wordIdent w p] false [] false (aliasOf label) []) where
  unbracketed := by simp [unbracketed_aliasTokens]
  reads rest h := by
    have after := @afterTableName rest label h
    have single := @path_single _ w p (after.accept (s := .period) (by decide))
    have read := @namedTable_reads g [.word w p] rest label _ h single
    have next : ∀ u ∈ (aliasTokens label ++ rest).head?, u ≠ .symbol .leftParen := by
      intro u hu
      rcases after.head u hu with ⟨s, hs, rfl⟩ | ⟨v, -, -, rfl⟩
      · rintro ⟨⟩
        exact absurd hs (by decide)
      · exact nofun
    simp only [table, run_bind, run_ahead, List.cons_append]
    rw [tableWithin_named hk next]
    exact read

theorem ReadsTable.qualified (hk : (Token.word w p).keyword?.getD "" ∉ notRelations) :
    ReadsTable g (.word w p :: .symbol .period :: .word c p' :: aliasTokens label)
      (.named [wordIdent w p, wordIdent c p'] false [] false (aliasOf label) []) where
  unbracketed := by simp [unbracketed_aliasTokens]
  reads rest h := by
    have after := @afterTableName rest label h
    have pair := @path_pair _ c w p p' (after.accept (s := .period) (by decide))
    have read := @namedTable_reads g [.word w p, .symbol .period, .word c p'] rest label _ h pair
    simp only [table, run_bind, run_ahead, List.cons_append]
    rw [tableWithin_named hk (by rintro _ ⟨⟩; exact nofun)]
    exact read

theorem ReadsTable.derived (h : ReadsQuery g ts q) :
    ReadsTable g (.symbol .leftParen :: (ts ++ .symbol .rightParen :: aliasTokens label))
      (.derived false q (aliasOf label)) where
  unbracketed := by simp [h.unbracketed, unbracketed_aliasTokens]
  reads rest hr := by
    have read : derivedTable g false (ts ++ .symbol .rightParen :: (aliasTokens label ++ rest)) =
        .ok (.derived false q (aliasOf label), rest) := by
      have query := h.reads (.symbol .rightParen :: (aliasTokens label ++ rest))
        (before_symbol (by decide) (by simp [unbracketed_aliasTokens, hr.unbracketed]))
      simp only [derivedTable, run_bind, query, expect_self, tableAlias_reads hr, run_pure]
    have lateral : ∀ ts, keyword "LATERAL" (.symbol .leftParen :: ts) = .ok (false, _) :=
      fun ts => keywords_symbol
    have table_ : ∀ ts, keyword "TABLE" (.symbol .leftParen :: ts) = .ok (false, _) :=
      fun ts => keywords_symbol
    simp only [table, run_bind, run_ahead, List.cons_append, List.append_assoc]
    rw [tableWithin]
    simp only [run_bind, lateral, table_, accept_cons, if_true, run_ite, Bool.false_eq_true,
      if_false, run_optional read, pivots_before hr]

/-! ### Joins -/

/-- The words of the joins that a condition may follow. -/
def conditionJoins : List (List String × JoinOperator) :=
  [(["INNER", "JOIN"], .inner), (["LEFT", "JOIN"], .left), (["RIGHT", "JOIN"], .right),
   (["FULL", "OUTER", "JOIN"], .full)]

/-- The words of all joins. -/
def joinForms : List (List String × JoinOperator) := (["CROSS", "JOIN"], .cross) :: conditionJoins

/-- Words without quotes. -/
def wordTokens (words : List String) : List Token := words.map (.word · false)

variable {op : JoinOperator}

theorem unbracketed_wordTokens : Token.symbol .leftBracket ∉ wordTokens words := by
  simp [wordTokens]

theorem joinOperator_reads (h : (words, op) ∈ conditionJoins) :
    joinOperator false (wordTokens words ++ rest) = .ok (some op, rest) := by
  simp only [conditionJoins, List.mem_cons, Prod.mk.injEq, List.not_mem_nil, or_false] at h
  rcases h with ⟨rfl, rfl⟩ | ⟨rfl, rfl⟩ | ⟨rfl, rfl⟩ | ⟨rfl, rfl⟩ <;> rfl

/-- What a join is followed by. -/
abbrev AfterJoin (rest : List Token) : Prop :=
  Before [.comma, .rightParen] (joinWords ++ clauseWords) rest

theorem AfterJoin.afterSource (h : AfterJoin rest) : AfterSource rest :=
  h.mono (List.Subset.refl _) (List.subset_cons_self _ _)

theorem AfterJoin.ends (h : AfterJoin rest) : Ends rest := h.mono (by decide) (by decide)

/-- Tokens are read as a join onto the tables before it. -/
structure ReadsJoin (g : Nesting) (ts : List Token) (j : Join) : Prop where
  unbracketed : Token.symbol .leftBracket ∉ ts
  starts : ∃ w ∈ joinWords, ∃ more, ts = .word w false :: more
  reads : ∀ rest, AfterJoin rest → join g (table g) (ts ++ rest) = .ok (some j, rest)

theorem starts_joinForms (h : (words, op) ∈ joinForms) :
    ∃ w ∈ joinWords, ∃ more, wordTokens words ++ ts = .word w false :: more := by
  simp only [joinForms, conditionJoins, List.mem_cons, Prod.mk.injEq, List.not_mem_nil,
    or_false] at h
  rcases h with ⟨rfl, -⟩ | ⟨rfl, -⟩ | ⟨rfl, -⟩ | ⟨rfl, -⟩ | ⟨rfl, -⟩ <;>
    exact ⟨_, by decide, _, rfl⟩

theorem join_conditional (h : (words, op) ∈ conditionJoins) {form : JoinForm} {on : Option Expr}
    (read : table g ts = .ok (t, us)) (constraint : joinConstraint g false us =
      .ok ((form, on), rest)) :
    join g (table g) (wordTokens words ++ ts) = .ok (some ⟨false, op, t, [], form, on⟩, rest) := by
  obtain ⟨w, hw, more, start⟩ := @starts_joinForms ts _ _ (List.mem_cons_of_mem _ h)
  have operator := @joinOperator_reads ts _ _ h
  have other : ∀ k, k ∉ joinWords → keyword k (.word w false :: more) = .ok (false, _) :=
    fun k hk => keywords_other ((show ∀ w ∈ joinWords, isCapital w = true by decide) w hw)
      fun same => hk (same ▸ hw)
  have cross : keyword "CROSS" (wordTokens words ++ ts) = .ok (false, wordTokens words ++ ts) := by
    simp only [conditionJoins, List.mem_cons, Prod.mk.injEq, List.not_mem_nil, or_false] at h
    rcases h with ⟨rfl, -⟩ | ⟨rfl, -⟩ | ⟨rfl, -⟩ | ⟨rfl, -⟩ <;>
      exact keywords_other (by decide) (by decide)
  rw [start] at operator cross ⊢
  simp only [join, run_bind, other "GLOBAL" (by decide), cross, other "OUTER" (by decide),
    other "ASOF" (by decide), other "NATURAL" (by decide), run_ite, Bool.false_eq_true, if_false,
    operator, read, constraint, run_pure]

theorem ReadsJoin.on (h : (words, op) ∈ conditionJoins) (ht : ReadsTable g ts t)
    (hx : ReadsItem g us x) :
    ReadsJoin g (wordTokens words ++ (ts ++ .word "ON" false :: us))
      ⟨false, op, t, [], .on, some x⟩ where
  unbracketed := by simp [unbracketed_wordTokens, ht.unbracketed, hx.unbracketed]
  starts := starts_joinForms (List.mem_cons_of_mem _ h)
  reads rest hr := by
    have read := ht.reads (.word "ON" false :: (us ++ rest))
      (before_word (by decide) (by decide) (by simp [hx.unbracketed, hr.unbracketed]))
    have found : keyword "ON" (.word "ON" false :: (us ++ rest)) = .ok (true, _) :=
      keyword_self (by decide)
    have condition := hx.expr rest hr.ends
    have constraint : joinConstraint g false (.word "ON" false :: (us ++ rest)) =
        .ok ((.on, some x), rest) := by
      simp only [joinConstraint, Bool.false_eq_true, if_false, run_bind, found, run_ite, if_true,
        condition, run_pure]
    simpa using join_conditional h read constraint

theorem joinConstraint_before (h : AfterJoin rest) :
    joinConstraint g false rest = .ok ((.unmarked, none), rest) := by
  have on : keyword "ON" rest = .ok (false, rest) := h.keyword (by decide)
  have columns : keyword "USING" rest = .ok (false, rest) := h.keyword (by decide)
  simp only [joinConstraint, Bool.false_eq_true, if_false, run_bind, on, columns, run_ite, run_pure]

theorem ReadsJoin.bare (h : (words, op) ∈ joinForms) (ht : ReadsTable g ts t) :
    ReadsJoin g (wordTokens words ++ ts) ⟨false, op, t, [], .unmarked, none⟩ where
  unbracketed := by simp [unbracketed_wordTokens, ht.unbracketed]
  starts := starts_joinForms h
  reads rest hr := by
    have read := ht.reads rest hr.afterSource
    rw [List.append_assoc]
    rcases List.mem_cons.mp h with cross | h
    · cases cross
      have all : keyword "GLOBAL" (.word "CROSS" false :: .word "JOIN" false :: (ts ++ rest)) =
          .ok (false, _) := keywords_other (by decide) (by decide)
      have found : keyword "CROSS" (.word "CROSS" false :: .word "JOIN" false :: (ts ++ rest)) =
          .ok (true, _) := keyword_self (by decide)
      have word : expectOneOf ["JOIN", "APPLY"] (.word "JOIN" false :: (ts ++ rest)) =
          .ok ("JOIN", ts ++ rest) := rfl
      simp only [wordTokens, List.map_cons, List.map_nil, List.cons_append, List.nil_append, join,
        run_bind, all, found, run_ite, if_true, word, run_pure, read]
    · exact join_conditional h read (joinConstraint_before hr)

/-! ### Entries of a FROM list -/

variable {joins : List Join} {groups : List (List Token)}

theorem unbracketed_joins (h : List.Forall₂ (ReadsJoin g) groups joins) :
    Token.symbol .leftBracket ∉ groups.flatten := by
  induction h with
  | nil => exact List.not_mem_nil
  | cons own _ ih => simp only [List.flatten_cons, List.mem_append, own.unbracketed, ih, or_self,
      not_false_eq_true]

theorem afterJoin_flatten (h : List.Forall₂ (ReadsJoin g) groups joins) (hr : AfterJoins rest) :
    AfterJoin (groups.flatten ++ rest) := by
  cases h with
  | nil => exact hr.mono (List.Subset.refl _) (by decide)
  | @cons us j groups joins own others =>
      have bracket := own.unbracketed
      obtain ⟨w, hw, more, rfl⟩ := own.starts
      refine before_word (List.mem_append_left _ hw)
        ((show ∀ w ∈ joinWords, isCapital w = true by decide) w hw) ?_
      simp only [List.mem_cons, not_or] at bracket
      simp [bracket.2, unbracketed_joins others, hr.unbracketed]

theorem join_none (h : AfterJoins rest) : join g (table g) rest = .ok (none, rest) := by
  have other : ∀ k, k ∉ clauseWords → keyword k rest = .ok (false, rest) := fun k hk => h.keyword hk
  have operator : joinOperator false rest = .ok (none, rest) := by
    have none_ : oneOf ["INNER", "JOIN", "LEFT", "RIGHT", "ANTI", "SEMI", "FULL"] rest =
      .ok (none, rest) := h.oneOf (by decide)
    have outer : atKeyword "OUTER" rest = .ok (false, rest) := h.atKeyword (by decide)
    simp only [joinOperator, run_bind, none_, Bool.false_eq_true, if_false, outer, run_ite,
      run_pure]
  simp only [join, run_bind, other "GLOBAL" (by decide), other "CROSS" (by decide),
    other "OUTER" (by decide), other "ASOF" (by decide), other "NATURAL" (by decide), run_ite,
    Bool.false_eq_true, if_false, operator, run_pure]

theorem gives_joins (h : List.Forall₂ (ReadsJoin g) groups joins) (hr : AfterJoins rest) :
    Gives (join g (table g)) (groups.flatten ++ rest) joins rest := by
  induction h with
  | nil => exact .stop (join_none hr)
  | @cons us j groups joins own others ih =>
      have read := own.reads _ (afterJoin_flatten others hr)
      obtain ⟨w, -, more, rfl⟩ := own.starts
      refine @Gives.more _ _ _ _ _ (groups.flatten ++ rest) _ ?_ ?_ ih
      · rw [List.flatten_cons, List.append_assoc]
        exact read
      · simp only [List.flatten_cons, List.cons_append, List.append_assoc, List.length_cons,
          List.length_append]
        omega

/-- Tokens are read as an entry of a FROM list. -/
structure ReadsSource (g : Nesting) (ts : List Token) (s : Source) : Prop where
  unbracketed : Token.symbol .leftBracket ∉ ts
  reads : ReadsBefore [.comma, .rightParen] clauseWords (source g) ts s

theorem ReadsTable.source (ht : ReadsTable g ts t) (h : List.Forall₂ (ReadsJoin g) groups joins) :
    ReadsSource g (ts ++ groups.flatten) ⟨t, joins⟩ where
  unbracketed := List.not_mem_append ht.unbracketed (unbracketed_joins h)
  reads rest hr := by
    have read := ht.reads _ (afterJoin_flatten h hr).afterSource
    have more := many_of_gives (gives_joins h hr)
    rw [List.append_assoc]
    simp only [Grammar.source, sourceOf, run_bind, read, more, run_pure]

end ReportSql.Sql.Grammar
