import ReportSql.Proofs.ReadSelects

/-!
Reading queries: set operations, common table expressions, and the clauses that order and limit the
rows.
-/
namespace ReportSql.Sql.Grammar

open Parse
open Text (isCapital)

variable {g : Nesting} {ts us rest more : List Token} {x y : Expr} {q : Query} {k w : String}
  {groups : List (List Token)} {S : List Symbol} {W : List String} {m n : Nat}
  {t : SelectTokens} {s : SelectParts}

/-! ### Bodies -/

/-- One set operator that binds more tightly than a given precedence, if one follows. -/
def setStep (g : Nesting) (n precedence : Nat) (left : Body) : Parse (Option Body) := do
  match setOperator? (← ahead) with
  | none => return none
  | some op =>
    if setPrecedence op ≤ precedence then return none
    else
      skip
      let quantifier ← setQuantifier
      let right ← bodyAbove g n (setPrecedence op)
      return some (.setOperation left op quantifier right)

theorem bodyAbove_eq (g : Nesting) (n precedence : Nat) : bodyAbove g (n + 1) precedence = (do
    let first ← simpleBody g
    iterate (setStep g n precedence) first) := rfl

/-- The words of the set operators. -/
def setWords : List (String × SetOperator) :=
  [("UNION", .union), ("EXCEPT", .except), ("INTERSECT", .intersect)]

/-- What a body is followed by. -/
abbrev AfterBody (rest : List Token) : Prop :=
  Before [.rightParen] (["UNION", "EXCEPT", "INTERSECT"] ++ ["ORDER", "LIMIT", "OFFSET"]) rest

theorem AfterSelect.afterBody (h : AfterSelect rest) : AfterBody rest :=
  h.mono (List.Subset.refl _) (by decide)

/-- How tightly the set operator that tokens start with binds. -/
def setLevel (ts : List Token) : Nat := ((setOperator? ts).map setPrecedence).getD 0

variable {op : SetOperator} {b c : Body} {precedence edge : Nat}

theorem AfterSelect.level (h : AfterSelect rest) : setLevel rest = 0 := by
  rcases h.cases with rfl | ⟨s, more, hs, rfl⟩ | ⟨w, more, hw, hc, rfl⟩
  · rfl
  · rfl
  · simp only [List.mem_cons, List.not_mem_nil, or_false] at hw
    rcases hw with rfl | rfl | rfl <;> simp [setLevel, setOperator?, keyword?_capital hc]

theorem setOperator?_word (h : (w, op) ∈ setWords) :
    setOperator? (.word w false :: ts) = some op := by
  have capital := (show ∀ e ∈ setWords, isCapital e.1 = true by decide) _ h
  simp only [setWords, List.mem_cons, Prod.mk.injEq, List.not_mem_nil, or_false] at h
  rcases h with ⟨rfl, rfl⟩ | ⟨rfl, rfl⟩ | ⟨rfl, rfl⟩ <;>
    simp [setOperator?, keyword?_capital capital]

theorem setStep_stops (h : setLevel rest ≤ precedence) :
    setStep g n precedence b rest = .ok (none, rest) := by
  unfold setLevel at h
  cases found : setOperator? rest with
  | none => simp only [setStep, run_bind, run_ahead, found, run_pure]
  | some op =>
      rw [found] at h
      have tight : setPrecedence op ≤ precedence := h
      simp only [setStep, run_bind, run_ahead, found, if_pos tight, run_pure]

/-- A query in parentheses is a body of its own. -/
theorem simpleBody_parens (h : ReadsQuery g ts q) (hb : Token.symbol .leftBracket ∉ rest) :
    simpleBody g (.symbol .leftParen :: (ts ++ .symbol .rightParen :: rest)) =
      .ok (.query q, rest) := by
  have query := h.reads (.symbol .rightParen :: rest)
    (before_symbol (by decide) (by simpa using hb))
  have position : ∀ ts, atKeyword "SELECT" (.symbol .leftParen :: ts) =
      .ok (false, .symbol .leftParen :: ts) :=
    fun ts => by simp [atKeyword, Token.isKeyword, Token.keyword?]
  simp only [simpleBody, run_bind, position, run_ite, Bool.false_eq_true, if_false, accept_cons,
    if_true, query, expect_self, run_pure]

/-- A query in parentheses is the whole operand of an operator that binds as tightly as what
follows. -/
theorem bodyAbove_parens (h : ReadsQuery g ts q) (hr : AfterBody rest)
    (hl : setLevel rest ≤ precedence) :
    bodyAbove g (n + 1) precedence (.symbol .leftParen :: (ts ++ .symbol .rightParen :: rest)) =
      .ok (.query q, rest) := by
  rw [bodyAbove_eq, run_bind, simpleBody_parens h hr.unbracketed]
  exact iterate_of_steps (.stop (setStep_stops hl))

/-- `ALL`, if a set operation keeps rows that are equal. -/
def allTokens (all : Bool) : List Token := if all then [.word "ALL" false] else []

theorem setQuantifier_reads {all : Bool} :
    setQuantifier (allTokens all ++ .symbol .leftParen :: ts) =
      .ok (if all then .all else .unmarked, .symbol .leftParen :: ts) := by
  cases all with
  | false =>
      simp only [allTokens, Bool.false_eq_true, if_false, List.nil_append, setQuantifier, run_bind,
        keyword, keywords_symbol, run_ite, run_pure]
  | true =>
      have other : ∀ k ks, k ≠ "ALL" → keywords (k :: ks) (.word "ALL" false ::
          .symbol .leftParen :: ts) = .ok (false, _) :=
        fun k ks hk => keywords_other (by decide) hk.symm
      have found : keyword "ALL" (.word "ALL" false :: .symbol .leftParen :: ts) = .ok (true, _) :=
        keyword_self (by decide)
      simp only [allTokens, if_true, List.cons_append, List.nil_append, setQuantifier, run_bind,
        other "DISTINCT" _ (by decide), other "BY" _ (by decide), found, keywords_symbol, run_ite,
        Bool.false_eq_true, if_false, run_pure]

/-- Tokens are read as a whole body. -/
structure ReadsBody (g : Nesting) (ts : List Token) (b : Body) : Prop where
  unbracketed : Token.symbol .leftBracket ∉ ts
  starts : ∃ more, ts = .word "SELECT" false :: more ∨ ts = .symbol .leftParen :: more
  reads : ∀ rest, AfterSelect rest → bodyAbove g 3 0 (ts ++ rest) = .ok (b, rest)

/-- Tokens are read as a chain of set operations, which goes on from there except for operators
that bind more tightly than its edge. -/
structure ReadsChain (g : Nesting) (edge : Nat) (ts : List Token) (b : Body) : Prop where
  unbracketed : Token.symbol .leftBracket ∉ ts
  starts : ∃ more, ts = .symbol .leftParen :: more
  reads : ∀ rest c more, AfterBody rest → setLevel rest ≤ edge →
    Steps (setStep g 2 0) b rest c more → bodyAbove g 3 0 (ts ++ rest) = .ok (c, more)

theorem ReadsChain.whole (h : ReadsChain g edge ts b) : ReadsBody g ts b where
  unbracketed := h.unbracketed
  starts := by
    obtain ⟨more, start⟩ := h.starts
    exact ⟨more, .inr start⟩
  reads rest hr := by
    have level := hr.level
    exact h.reads rest b rest hr.afterBody (by omega) (.stop (setStep_stops (by omega)))

theorem ReadsChain.parens (h : ReadsQuery g ts q) :
    ReadsChain g edge (.symbol .leftParen :: (ts ++ [.symbol .rightParen])) (.query q) where
  unbracketed := by simp [h.unbracketed]
  starts := ⟨_, rfl⟩
  reads rest c more hr _ steps := by
    simp only [List.cons_append, List.append_assoc, List.nil_append]
    rw [bodyAbove_eq, run_bind, simpleBody_parens h hr.unbracketed]
    exact iterate_of_steps steps

/-- An operator takes a chain on where the chain does not end more loosely than it binds. -/
theorem ReadsChain.operation {all : Bool} (hw : (w, op) ∈ setWords) (hb : ReadsChain g edge ts b)
    (hq : ReadsQuery g us q) (left : setPrecedence op ≤ edge) :
    ReadsChain g (setPrecedence op)
      (ts ++ .word w false :: (allTokens all ++
        .symbol .leftParen :: (us ++ [.symbol .rightParen])))
      (.setOperation b op (if all then .all else .unmarked) (.query q)) where
  unbracketed := by cases all <;> simp [allTokens, hb.unbracketed, hq.unbracketed]
  starts := by
    obtain ⟨more, rfl⟩ := hb.starts
    exact ⟨_, rfl⟩
  reads rest c more hr hl steps := by
    have capital := (show ∀ e ∈ setWords, isCapital e.1 = true by decide) _ hw
    have known := (show ∀ e ∈ setWords, e.1 ∈ ["UNION", "EXCEPT", "INTERSECT"] by decide) _ hw
    have tight : ¬ setPrecedence op ≤ 0 := by
      cases op <;> decide
    have operator := @setOperator?_word
      (allTokens all ++ .symbol .leftParen :: (us ++ .symbol .rightParen :: rest)) _ _ hw
    simp only [List.append_assoc, List.cons_append, List.nil_append]
    refine hb.reads _ c more (before_word (List.mem_append_left _ known) capital ?_) ?_
      (.more (b := .setOperation b op (if all then .all else .unmarked) (.query q))
        ?_ ?_ steps)
    · cases all <;> simp [allTokens, hq.unbracketed, hr.unbracketed]
    · rw [setLevel, operator]
      exact left
    · simp only [setStep, run_bind, run_ahead, operator, if_neg tight, run_skip, List.tail_cons,
        setQuantifier_reads, bodyAbove_parens hq hr hl, run_pure]
    · simp only [List.length_cons, List.length_append]
      omega

theorem ReadsParts.unbracketed (h : ReadsParts g t s) {distinct : Bool} :
    Token.symbol .leftBracket ∉ t.all distinct := by
  have items := unbracketed_commaJoined (unbracketed_groups h.items ReadsSelectItem.unbracketed)
  have sources := @unbracketed_clauseTokens _ ["FROM"]
    (unbracketed_groups h.sources ReadsSource.unbracketed)
  have keys := @unbracketed_clauseTokens _ ["GROUP", "BY"]
    (unbracketed_items (h.keys.imp fun _ _ key => key.item))
  have condition := h.condition.unbracketed (by simp)
  have having := h.having.unbracketed (by simp)
  cases distinct <;>
    simp [SelectTokens.all, SelectTokens.clauses, distinctTokens, items, sources, keys, condition,
      having]

theorem ReadsParts.body (h : ReadsParts g t s) :
    ReadsBody g (t.all s.distinct) (.select s.select) where
  unbracketed := h.unbracketed
  starts := ⟨_, .inl rfl⟩
  reads rest hr := by
    have level := hr.level
    have position : atKeyword "SELECT" (t.all s.distinct ++ rest) =
        .ok (true, t.all s.distinct ++ rest) := by
      simp [atKeyword, SelectTokens.all, Token.isKeyword,
        keyword?_capital (show isCapital "SELECT" = true by decide)]
    have first : simpleBody g (t.all s.distinct ++ rest) = .ok (.select s.select, rest) := by
      simp only [simpleBody, run_bind, position, run_ite, if_true, h.select hr, run_pure]
    rw [bodyAbove_eq, run_bind, first]
    exact iterate_of_steps (.stop (setStep_stops (by omega)))

/-! ### Common table expressions -/

/-- What a common table expression is followed by. -/
abbrev AfterCte (rest : List Token) : Prop := Before [.comma, .leftParen] ["SELECT"] rest

/-- Tokens are read as a common table expression. -/
structure ReadsCte (g : Nesting) (ts : List Token) (c : Cte) : Prop where
  unbracketed : Token.symbol .leftBracket ∉ ts
  starts : ∃ w p more, ts = .word w p :: more
  reads : ReadsBefore [.comma, .leftParen] ["SELECT"] (cte g) ts c

theorem ReadsQuery.cte {p : Bool} (h : ReadsQuery g ts q) :
    ReadsCte g
      (.word w p :: .word "AS" false :: .symbol .leftParen :: (ts ++ [.symbol .rightParen]))
      ⟨⟨wordIdent w p, []⟩, none, q, none⟩ where
  unbracketed := by simp [h.unbracketed]
  starts := ⟨w, p, _, rfl⟩
  reads rest hr := by
    have query := h.reads (.symbol .rightParen :: rest)
      (before_symbol (by decide) (by simpa using hr.unbracketed))
    have word : ∀ ts, keyword "AS" (.word "AS" false :: ts) = .ok (true, ts) :=
      fun ts => keyword_self (by decide)
    have source : keyword "FROM" rest = .ok (false, rest) := hr.keyword (by decide)
    have open_ : ∀ ts, materialized (.symbol .leftParen :: ts) =
        .ok (none, .symbol .leftParen :: ts) := fun ts => by simp [materialized, keyword]
    simp only [List.cons_append, List.append_assoc, List.nil_append, Grammar.cte, run_bind,
      run_ident, word, run_ite, if_true, run_pure, open_, inParens, expect_self, query, source,
      Bool.false_eq_true, if_false]

variable {ctes : List Cte}

/-- The tokens of common table expressions, if there are any. -/
def withTokens (recursive : Bool) (groups : List (List Token)) : List Token :=
  if groups.isEmpty then []
  else .word "WITH" false :: ((if recursive then [.word "RECURSIVE" false] else []) ++
    commaJoined groups)

/-! ### The order of rows -/

/-- The direction of an order, if it is given. -/
def directionTokens : Option Bool → List Token
  | none => []
  | some true => [.word "ASC" false]
  | some false => [.word "DESC" false]

/-- The place of NULL in an order, if it is given. -/
def nullsTokens : Option Bool → List Token
  | none => []
  | some true => [.word "NULLS" false, .word "FIRST" false]
  | some false => [.word "NULLS" false, .word "LAST" false]

/-- What an item of an order is followed by. -/
abbrev AfterOrder (rest : List Token) : Prop :=
  Before [.comma, .rightParen] ["LIMIT", "OFFSET"] rest

/-- Tokens are read as an item of an order. -/
structure ReadsOrder (g : Nesting) (ts : List Token) (o : OrderItem) : Prop where
  unbracketed : Token.symbol .leftBracket ∉ ts
  reads : ReadsBefore [.comma, .rightParen] ["LIMIT", "OFFSET"] (orderItem g) ts o

variable {ascending nullsFirst : Option Bool}

theorem unbracketed_directionTokens : Token.symbol .leftBracket ∉ directionTokens ascending := by
  rcases ascending with _ | _ | _ <;> decide

theorem unbracketed_nullsTokens : Token.symbol .leftBracket ∉ nullsTokens nullsFirst := by
  rcases nullsFirst with _ | _ | _ <;> decide

theorem before_nulls (h : AfterOrder rest) :
    Before [.comma, .rightParen] ["NULLS", "LIMIT", "OFFSET"] (nullsTokens nullsFirst ++ rest) := by
  rcases nullsFirst with _ | _ | _
  · exact h.mono (List.Subset.refl _) (by decide)
  all_goals exact before_word (by decide) (by decide) (by simpa using h.unbracketed)

theorem before_direction (h : AfterOrder rest) :
    Before [.comma, .rightParen] ["ASC", "DESC", "NULLS", "LIMIT", "OFFSET"]
      (directionTokens ascending ++ (nullsTokens nullsFirst ++ rest)) := by
  have nulls := @before_nulls rest nullsFirst h
  rcases ascending with _ | _ | _
  · exact nulls.mono (List.Subset.refl _) (by decide)
  all_goals exact before_word (by decide) (by decide) nulls.unbracketed

theorem direction_reads (h : Before S W rest) (hA : "ASC" ∉ W) (hD : "DESC" ∉ W) :
    direction (directionTokens ascending ++ rest) = .ok (ascending, rest) := by
  rcases ascending with _ | _ | _
  · have asc : keyword "ASC" rest = .ok (false, rest) := h.keyword hA
    have desc : keyword "DESC" rest = .ok (false, rest) := h.keyword hD
    simp only [directionTokens, List.nil_append, direction, run_bind, asc, desc, run_ite,
      Bool.false_eq_true, if_false, run_pure]
  · have asc : keyword "ASC" (.word "DESC" false :: rest) = .ok (false, _) :=
      keywords_other (by decide) (by decide)
    have desc : keyword "DESC" (.word "DESC" false :: rest) = .ok (true, _) :=
      keyword_self (by decide)
    simp only [directionTokens, List.cons_append, List.nil_append, direction, run_bind, asc, desc,
      run_ite, Bool.false_eq_true, if_false, if_true, run_pure]
  · have asc : keyword "ASC" (.word "ASC" false :: rest) = .ok (true, _) :=
      keyword_self (by decide)
    simp only [directionTokens, List.cons_append, List.nil_append, direction, run_bind, asc,
      run_ite, if_true, run_pure]

theorem nullsPlace_reads (h : AfterOrder rest) :
    nullsPlace (nullsTokens nullsFirst ++ rest) = .ok (nullsFirst, rest) := by
  rcases nullsFirst with _ | _ | _
  · have none_ : ∀ l, keywords ["NULLS", l] rest = .ok (false, rest) :=
      fun l => h.keywords (by decide)
    simp only [nullsTokens, List.nil_append, nullsPlace, run_bind, none_, run_ite,
      Bool.false_eq_true, if_false, run_pure]
  · have first : keywords ["NULLS", "FIRST"] (.word "NULLS" false :: .word "LAST" false :: rest) =
        .ok (false, _) := keywords_second (by decide) (by decide) (by decide)
    have last : keywords ["NULLS", "LAST"] (.word "NULLS" false :: .word "LAST" false :: rest) =
        .ok (true, _) := keywords_pair (by decide) (by decide)
    simp only [nullsTokens, List.cons_append, List.nil_append, nullsPlace, run_bind, first, last,
      run_ite, Bool.false_eq_true, if_false, if_true, run_pure]
  · have first : keywords ["NULLS", "FIRST"] (.word "NULLS" false :: .word "FIRST" false :: rest) =
        .ok (true, _) := keywords_pair (by decide) (by decide)
    simp only [nullsTokens, List.cons_append, List.nil_append, nullsPlace, run_bind, first, run_ite,
      if_true, run_pure]

theorem ReadsItem.order (ascending nullsFirst : Option Bool) (h : ReadsItem g ts x) :
    ReadsOrder g (ts ++ (directionTokens ascending ++ nullsTokens nullsFirst))
      ⟨x, ascending, nullsFirst⟩ where
  unbracketed := List.not_mem_append h.unbracketed
    (List.not_mem_append unbracketed_directionTokens unbracketed_nullsTokens)
  reads rest hr := by
    have read := h.expr _ ((@before_direction rest ascending nullsFirst hr).mono
      (List.Subset.refl _) (by decide))
    have way := @direction_reads _ _ _ ascending (@before_nulls rest nullsFirst hr) (by decide)
      (by decide)
    have place := @nullsPlace_reads rest nullsFirst hr
    simp only [List.append_assoc, orderItem, run_bind, read, way, place, run_pure]

/-! ### Queries -/

theorem limitClause_reads (h : ReadsItem g ts x) (hr : Before [.rightParen] ["OFFSET"] rest) :
    limitClause g (ts ++ rest) = .ok (some x, rest) := by
  have ends : Ends rest := hr.mono (by decide) (by decide)
  have all := (h.opens (Ends.follows ends)).keyword (k := "ALL") (by decide)
  simp only [limitClause, run_bind, all, run_ite, Bool.false_eq_true, if_false, h.expr rest ends,
    run_pure]

theorem offsetUnit_before (h : Before [.rightParen] [] rest) :
    offsetUnit rest = .ok (.unmarked, rest) := by
  have row : keyword "ROW" rest = .ok (false, rest) := h.keyword (by decide)
  have rows : keyword "ROWS" rest = .ok (false, rest) := h.keyword (by decide)
  simp only [offsetUnit, run_bind, row, rows, run_ite, Bool.false_eq_true, if_false, run_pure]

variable {limit offset : Option Expr} {ls os : List Token}

/-- The rows that a query is limited to. The clauses are read in two rounds, the second of which
finds nothing more. -/
theorem limits_read (hl : ReadsOption g [.word "LIMIT" false] ls limit)
    (ho : ReadsOption g [.word "OFFSET" false] os offset) (hr : Before [.rightParen] [] rest) :
    limits g 2 none none (ls ++ (os ++ rest)) =
      .ok ((limit, offset.map (·, OffsetUnit.unmarked)), rest) := by
  have noLimit : keyword "LIMIT" rest = .ok (false, rest) := hr.keyword (by decide)
  have noOffset : keyword "OFFSET" rest = .ok (false, rest) := hr.keyword (by decide)
  have limit_ : ∀ ts, keyword "LIMIT" (.word "LIMIT" false :: ts) = .ok (true, ts) :=
    fun ts => keyword_self (by decide)
  have offset_ : ∀ ts, keyword "OFFSET" (.word "OFFSET" false :: ts) = .ok (true, ts) :=
    fun ts => keyword_self (by decide)
  have other : ∀ ts, keyword "LIMIT" (.word "OFFSET" false :: ts) = .ok (false, _) :=
    fun ts => keywords_other (by decide) (by decide)
  have after : Before [.rightParen] ["OFFSET"] (os ++ rest) :=
    before_option (hr.mono (List.Subset.refl _) (by decide)) (by decide) (by decide) ho
  have unit := offsetUnit_before hr
  have count : ∀ {us x}, ReadsItem g us x → g.expr (us ++ rest) = .ok (x, rest) :=
    fun own => own.expr rest (hr.mono (by decide) (by decide))
  cases hl with
  | none =>
      cases ho with
      | none =>
          simp [limits, noLimit, noOffset]
      | some own =>
          simp [limits, other, offset_, count own, unit, noLimit]
  | some own =>
      have most := limitClause_reads own after
      cases ho with
      | none =>
          simp only [List.nil_append] at most
          simp [limits, limit_, most, noOffset]
      | some more =>
          simp only [List.cons_append, List.nil_append] at most
          simp [limits, limit_, most, offset_, count more, unit]

/-- What a query goes on with after its common table expressions. -/
def queryRest (g : Nesting) (isRecursive : Bool) (ctes : List Cte) : Parse Query := do
  if ← keyword "INSERT" then
    return ofBody isRecursive ctes (.change "INSERT" (← insertRest g))
  else if ← keyword "UPDATE" then
    return ofBody isRecursive ctes (.change "UPDATE" (← updateRest g))
  else
    let body ← bodyAbove g 3 0
    let orderBy ← if ← keywords ["ORDER", "BY"] then orderItems g else pure []
    let (limit, offset) ← limits g 2 none none
    let fetch ← fetchClause
    let (locks, output) ← forClauses ((← ahead).length + 1)
    return {
      isRecursive, ctes, body, orderBy, limit
      offset := offset.map Prod.fst
      offsetUnit := (offset.map Prod.snd).getD .unmarked
      fetch, locks, output }

/-- The common table expressions of a query, and whether they may be recursive. -/
def withClause (g : Nesting) : Parse (Bool × List Cte) := do
  if ← keyword "WITH" then
    let isRecursive ← keyword "RECURSIVE"
    return (isRecursive, ← commaSeparated (cte g))
  else return (false, [])

theorem query_eq (g : Nesting) : query g = (do
    let (isRecursive, ctes) ← withClause g
    queryRest g isRecursive ctes) := by
  funext ts
  simp only [query, withClause, run_bind]
  cases keyword "WITH" ts with
  | error e => rfl
  | ok found =>
      obtain ⟨hasCtes, rest⟩ := found
      cases hasCtes with
      | false => rfl
      | true =>
          simp only [if_true, run_bind, run_pure]
          cases keyword "RECURSIVE" rest with
          | error e => rfl
          | ok found =>
              simp only
              cases commaSeparated (cte g) found.2 with
              | error e => rfl
              | ok ctes => simp only [queryRest, run_bind]

theorem ReadsCte.nonempty {c : Cte} (h : ReadsCte g ts c) : ts ≠ [] := by
  obtain ⟨w, p, more, rfl⟩ := h.starts
  exact List.cons_ne_nil _ _

theorem withClause_reads {isRecursive : Bool} (h : List.Forall₂ (ReadsCte g) groups ctes)
    (recursive : isRecursive = true → groups ≠ [])
    (plain : ∀ t ∈ (commaJoined groups).head?, t.keyword? ≠ some "RECURSIVE") (hr : AfterCte rest)
    (ends : accept .comma rest = .ok (false, rest)) :
    withClause g (withTokens isRecursive groups ++ rest) = .ok ((isRecursive, ctes), rest) := by
  cases h with
  | nil =>
      have other : keyword "WITH" rest = .ok (false, rest) := hr.keyword (by decide)
      cases isRecursive with
      | true => exact absurd rfl (recursive rfl)
      | false =>
          simp only [withTokens, List.isEmpty_nil, if_true, List.nil_append, withClause, run_bind,
            other, run_ite, Bool.false_eq_true, if_false, run_pure]
  | @cons us c groups ctes own others =>
      have all := List.Forall₂.cons own others
      have found : ∀ ts, keyword "WITH" (.word "WITH" false :: ts) = .ok (true, ts) :=
        fun ts => keyword_self (by decide)
      have read := commaSeparated_of_reads (all.imp fun _ _ c => c.reads) (List.cons_ne_nil _ _)
        (unbracketed_groups all ReadsCte.unbracketed) (by decide) hr ends
      cases isRecursive with
      | false =>
          have nonempty : commaJoined (us :: groups) ≠ [] := by
            cases groups with
            | nil => exact own.nonempty
            | cons _ _ => exact List.append_ne_nil_of_left_ne_nil own.nonempty _
          have word : keyword "RECURSIVE" (commaJoined (us :: groups) ++ rest) = .ok (false, _) :=
            keywords_of_head nonempty plain
          simp only [withTokens, List.isEmpty_cons, Bool.false_eq_true, if_false, List.nil_append,
            List.cons_append, withClause, run_bind, found, run_ite, if_true, word, read, run_pure]
      | true =>
          have word : ∀ ts, keyword "RECURSIVE" (.word "RECURSIVE" false :: ts) = .ok (true, ts) :=
            fun ts => keyword_self (by decide)
          simp only [withTokens, List.isEmpty_cons, Bool.false_eq_true, if_false, List.nil_append,
            List.cons_append, withClause, run_bind, found, run_ite, if_true, word, read, run_pure]

/-- The parts of a query. -/
structure QueryParts where
  isRecursive : Bool
  ctes : List Cte
  body : Body
  orders : List OrderItem
  limit : Option Expr
  offset : Option Expr

/-- The query of some parts. -/
def QueryParts.query (p : QueryParts) : Query where
  isRecursive := p.isRecursive
  ctes := p.ctes
  body := p.body
  orderBy := p.orders
  limit := p.limit
  offset := p.offset
  offsetUnit := .unmarked
  fetch := none
  locks := []
  output := none

/-- The tokens of the parts of a query. -/
structure QueryTokens where
  ctes : List (List Token)
  body : List Token
  orders : List (List Token)
  limit : List Token
  offset : List Token

/-- The clauses after the body. -/
def QueryTokens.clauses (t : QueryTokens) : List Token :=
  clauseTokens ["ORDER", "BY"] t.orders ++ (t.limit ++ t.offset)

def QueryTokens.all (t : QueryTokens) (isRecursive : Bool) : List Token :=
  withTokens isRecursive t.ctes ++ (t.body ++ t.clauses)

/-- Tokens are read as the parts of a query. -/
structure ReadsQueryParts (g : Nesting) (t : QueryTokens) (p : QueryParts) : Prop where
  ctes : List.Forall₂ (ReadsCte g) t.ctes p.ctes
  recursive : p.isRecursive = true → t.ctes ≠ []
  plain : ∀ u ∈ (commaJoined t.ctes).head?, u.keyword? ≠ some "RECURSIVE"
  body : ReadsBody g t.body p.body
  orders : List.Forall₂ (ReadsOrder g) t.orders p.orders
  limit : ReadsOption g [.word "LIMIT" false] t.limit p.limit
  offset : ReadsOption g [.word "OFFSET" false] t.offset p.offset

variable {u : QueryTokens} {p : QueryParts} {orders : List OrderItem}

theorem afterOrders (h : ReadsQueryParts g u p) (hr : Before [.rightParen] [] rest) :
    Before [.rightParen] ["LIMIT", "OFFSET"] (u.limit ++ (u.offset ++ rest)) := by
  have after : Before [.rightParen] ["OFFSET"] (u.offset ++ rest) :=
    before_option (hr.mono (List.Subset.refl _) (by decide)) (by decide) (by decide) h.offset
  exact before_option (after.mono (List.Subset.refl _) (by decide)) (by decide) (by decide) h.limit

theorem afterBody (h : ReadsQueryParts g u p) (hr : Before [.rightParen] [] rest) :
    AfterSelect (u.clauses ++ rest) := by
  have after : AfterSelect (u.limit ++ (u.offset ++ rest)) :=
    (afterOrders h hr).mono (List.Subset.refl _) (by decide)
  simpa [QueryTokens.clauses] using before_clause ["BY"] after (by decide) (by decide)
    (unbracketed_groups h.orders ReadsOrder.unbracketed)

theorem orders_read (h : List.Forall₂ (ReadsOrder g) groups orders)
    (hr : Before [.rightParen] ["LIMIT", "OFFSET"] rest) :
    ∃ found us, keywords ["ORDER", "BY"] (clauseTokens ["ORDER", "BY"] groups ++ rest) =
        .ok (found, us) ∧
      (if found then orderItems g else pure []) us = .ok (orders, rest) := by
  have after : AfterOrder rest := hr.mono (by decide) (List.Subset.refl _)
  cases h with
  | nil => exact ⟨false, rest, hr.keywords (by decide), rfl⟩
  | @cons us y groups sources own others =>
      have all := List.Forall₂.cons own others
      have read := commaSeparated_of_reads (all.imp fun _ _ o => o.reads) (List.cons_ne_nil _ _)
        (unbracketed_groups all ReadsOrder.unbracketed) (by decide) after (hr.accept (by decide))
      exact ⟨true, _, keywords_pair (by decide) (by decide), read⟩

theorem queryRest_reads (h : ReadsQueryParts g u p) (hr : Before [.rightParen] [] rest) :
    queryRest g p.isRecursive p.ctes (u.body ++ (u.clauses ++ rest)) = .ok (p.query, rest) := by
  have other : ∀ k ∈ ["INSERT", "UPDATE"], keyword k (u.body ++ (u.clauses ++ rest)) =
      .ok (false, u.body ++ (u.clauses ++ rest)) := by
    intro k hk
    obtain ⟨more, start | start⟩ := h.body.starts
    · rw [start]
      exact keywords_other (by decide) (by rintro rfl; exact absurd hk (by decide))
    · rw [start]
      exact keywords_symbol
  have body := h.body.reads _ (afterBody h hr)
  obtain ⟨found, us, start, orders⟩ := orders_read h.orders (afterOrders h hr)
  have limits := limits_read h.limit h.offset hr
  have fetch : keyword "FETCH" rest = .ok (false, rest) := hr.keyword (by decide)
  have locks : keyword "FOR" rest = .ok (false, rest) := hr.keyword (by decide)
  have clauses : u.clauses ++ rest =
      clauseTokens ["ORDER", "BY"] u.orders ++ (u.limit ++ (u.offset ++ rest)) := by
    simp only [QueryTokens.clauses, List.append_assoc]
  have count : (p.offset.map (·, OffsetUnit.unmarked)).map Prod.fst = p.offset := by
    cases p.offset <;> rfl
  have unit :
      ((p.offset.map (·, OffsetUnit.unmarked)).map Prod.snd).getD .unmarked = .unmarked := by
    cases p.offset <;> rfl
  rw [← clauses] at start
  cases found <;>
    simp only [Bool.false_eq_true, if_false, if_true, run_pure, Except.ok.injEq, Prod.mk.injEq]
      at orders <;>
    simp only [queryRest, run_bind, other _ (by decide : "INSERT" ∈ ["INSERT", "UPDATE"]),
      other _ (by decide : "UPDATE" ∈ ["INSERT", "UPDATE"]), run_ite, Bool.false_eq_true, if_false,
      body, start, orders, if_true, run_pure, limits, fetchClause, fetch, run_ahead, forClauses,
      locks, count, unit] <;>
    rfl

theorem ReadsQueryParts.unbracketed (h : ReadsQueryParts g u p) :
    Token.symbol .leftBracket ∉ u.all p.isRecursive := by
  have ctes := unbracketed_commaJoined (unbracketed_groups h.ctes ReadsCte.unbracketed)
  have orders := @unbracketed_clauseTokens _ ["ORDER", "BY"]
    (unbracketed_groups h.orders ReadsOrder.unbracketed)
  have limit := h.limit.unbracketed (by simp)
  have offset := h.offset.unbracketed (by simp)
  have start : Token.symbol .leftBracket ∉ withTokens p.isRecursive u.ctes := by
    unfold withTokens
    split
    · exact List.not_mem_nil
    · cases p.isRecursive <;> simp [ctes]
  simp [QueryTokens.all, QueryTokens.clauses, start, h.body.unbracketed, orders, limit, offset]

theorem ReadsQueryParts.reads (h : ReadsQueryParts g u p) :
    ReadsBefore [.rightParen] [] (Grammar.query g) (u.all p.isRecursive) p.query := by
  intro rest hr
  have bracket : Token.symbol .leftBracket ∉ u.body ++ (u.clauses ++ rest) :=
    List.not_mem_append h.body.unbracketed (afterBody h hr).unbracketed
  have after : Before [.leftParen] ["SELECT"] (u.body ++ (u.clauses ++ rest)) := by
    obtain ⟨more, start | start⟩ := h.body.starts
    · rw [start] at bracket ⊢
      exact before_word (by decide) (by decide) (by simpa using bracket)
    · rw [start] at bracket ⊢
      exact before_symbol (by decide) bracket
  have ctes := withClause_reads h.ctes h.recursive h.plain
    (after.mono (by decide) (List.Subset.refl _)) (after.accept (by decide))
  have body := queryRest_reads h hr
  rw [query_eq, QueryTokens.all, List.append_assoc, List.append_assoc, run_bind, ctes]
  exact body

/-- The parts of a query at one level are a query at the level around it. -/
theorem ReadsQueryParts.inside (h : ReadsQueryParts (nesting n) u p) :
    ReadsQuery (nesting (n + 1)) (u.all p.isRecursive) p.query where
  unbracketed := h.unbracketed
  reads := h.reads

/-! ### Statements -/

/-- Tokens start as a statement that is a query does. -/
def StartsStatement (ts : List Token) : Prop :=
  ∃ t more, ts = t :: more ∧
    (t = .symbol .leftParen ∨ t = .word "SELECT" false ∨ t = .word "WITH" false)

theorem ReadsQueryParts.starts (h : ReadsQueryParts g u p) :
    StartsStatement (u.all p.isRecursive) := by
  unfold QueryTokens.all withTokens
  split
  · obtain ⟨more, start | start⟩ := h.body.starts
    · exact ⟨.word "SELECT" false, more ++ u.clauses, by rw [start]; rfl, .inr (.inl rfl)⟩
    · exact ⟨.symbol .leftParen, more ++ u.clauses, by rw [start]; rfl, .inl rfl⟩
  · exact ⟨.word "WITH" false, _, rfl, .inr (.inr rfl)⟩

theorem statement_query (h : g.query ts = .ok (q, rest)) (starts : StartsStatement ts) :
    statement g ts = .ok (.query q, rest) := by
  obtain ⟨t, more, rfl, rfl | rfl | rfl⟩ := starts
  · simp only [statement, run_bind, run_peek, List.head?_cons, h, run_pure]
  all_goals
    simp [statement, run_peek, h, keyword?_capital (show isCapital "SELECT" = true by decide),
      keyword?_capital (show isCapital "WITH" = true by decide)]

/-- Tokens that are read as a query are read as one statement. -/
theorem readStatements_query (h : ReadsQuery (nesting 49) ts q) (starts : StartsStatement ts) :
    readStatements ts = .ok [.query q] := by
  have query := h.reads [] before_nil
  rw [List.append_nil] at query
  have read : (nesting depthLimit).statement ts = .ok (.query q, []) := statement_query query starts
  obtain ⟨t, more, rfl, head⟩ := starts
  have separator : accept .semicolon (t :: more) = .ok (false, t :: more) := by
    rcases head with rfl | rfl | rfl <;> rfl
  have ends : ∀ n,
      statementsWithin (nesting depthLimit).statement (n + 1) false [] = .ok ([], []) :=
    fun n => rfl
  have all : ∀ n, statementsWithin (nesting depthLimit).statement (n + 2) true (t :: more) =
      .ok ([.query q], []) := by
    intro n
    rw [statementsWithin]
    simp only [run_bind, separator, run_ite, Bool.false_eq_true, if_false, run_peek,
      List.head?_cons, if_true, read, ends, run_pure]
  have length : 2 * (t :: more).length + 1 = 2 * more.length + 1 + 2 := by
    rw [List.length_cons]
    omega
  simp only [readStatements, statements, run_bind, run_ahead, length, all]
  rfl

end ReportSql.Sql.Grammar
