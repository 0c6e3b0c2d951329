import ReportSql.Proofs.ConvertedParts
import ReportSql.Proofs.RereadTrees
import ReportSql.Tree.Equality

/-!
Texts that are read as a single expression. The text is read as a select list: it is refused where
the list has several items, a label, a source or a set operation, and the other clauses of a query
are read and dropped.
-/
namespace ReportSql.Tree

open Output (Token spelled sqlText)

variable {e : Expr} {q : Query} {text : String} {ts : List Token}

/-! ### What is refused -/

/-- The select list that a lone item was converted from. -/
theorem lone_converted {s : Sql.Query} {x : Sql.Expr} (h : Query.ofSyntax s = .ok q)
    (lone : loneItem? s = some x) :
    ∃ e, Expr.ofSyntax x = .ok e ∧ q.items = [e.item] ∧ q.sources = [] ∧
      q.setOperation = none := by
  obtain ⟨out, converted⟩ := query_converted h
  unfold loneItem? at lone
  split at lone
  · next select body =>
    have inner := converted.inner
    rw [body] at inner
    have clauses := select_converted inner
    split at lone
    · next items sources =>
      obtain rfl : _ = x := Option.some.inj lone
      have listed := clauses.items
      rw [items] at listed
      simp only [itemsOfSyntax, bind_eq_ok] at listed
      obtain ⟨e, own, _, rest, listed⟩ := listed
      obtain rfl := Except.ok.inj rest
      have listed : out.items = [e.item] := (Except.ok.inj listed).symm
      have nothing := clauses.sources
      rw [sources] at nothing
      exact ⟨e, own, converted.items.trans listed,
        converted.sources.trans (Except.ok.inj nothing).symm,
        converted.setOperation.trans clauses.setOperation⟩
    · cases lone
  · cases lone

/-- Where a text is a query once SELECT stands before it, it is refused as an expression, or the
query has this expression as its only item, without a label, a source and a set operation. -/
theorem lone_or_refused (h : Query.read ("SELECT " ++ text) = .ok q) :
    Expr.read text = .error (.notAnExpression text) ∨
      ∃ e, Expr.read text = .ok e ∧ q.items = [e.item] ∧ q.sources = [] ∧
        q.setOperation = none := by
  obtain ⟨s, found, own⟩ := query_of_read h
  unfold Expr.read
  simp only [found]
  cases lone : loneItem? s with
  | none => exact .inl rfl
  | some x =>
      obtain ⟨e, read, parts⟩ := lone_converted own lone
      refine .inr ⟨e, ?_, parts⟩
      simp only [read]
      rfl

/-! ### What is dropped -/

theorem Neat.tail {t : Token} (h : Neat (t :: ts)) : Neat ts where
  chained := by
    have chained := h.chained
    cases ts with
    | nil => rfl
    | cons u ts =>
        simp only [isChained, Bool.and_eq_true] at chained
        exact chained.2
  ends := by
    cases ts with
    | nil =>
        intro t last
        cases last
    | cons u ts =>
        rw [← List.getLast?_cons_cons (a := t)]
        exact h.ends

theorem loneItem?_toSyntax (plain : e.isWildcard = false) (items : q.items = [e.item])
    (sources : q.sources = []) (single : q.setOperation = none) :
    loneItem? q.toSyntax = some e.toSyntax := by
  have item : q.selectSyntax.select.items = [.expr e.toSyntax none] := by
    change itemsSyntax q.items = _
    rw [items, Expr.item, itemsSyntax, plain]
    rfl
  have nothing : q.selectSyntax.select.sources = [] := by
    change sourcesSyntax q.sources = _
    rw [sources]
    rfl
  simp only [loneItem?, toSyntax_select single, item, nothing]

/-- Tokens that are those of a query with a lone item, but for the blanks and the first SELECT, are
read as the item. -/
theorem read_spelled (neat : Neat ts)
    (same : spelled (.mark .select :: ts) = spelled q.tokens) (h : q.isReadable = true)
    (hd : q.depth ≤ 48) (he : e.isReadable = true) (items : q.items = [e.item])
    (sources : q.sources = []) (single : q.setOperation = none) :
    Expr.read (sqlText ts) = .ok e.reread := by
  have statement : statements? ("SELECT " ++ sqlText ts) = some [.query q.toSyntax] := by
    have whole : Neat (.mark .select :: .mark .space :: ts) :=
      (leading_of [.mark .select, .mark .space] rfl).append neat
    have spaced : spelled (.mark .select :: .mark .space :: ts) = spelled q.tokens := by
      rw [← same]
      rfl
    have text : "SELECT " ++ sqlText ts = sqlText (.mark .select :: .mark .space :: ts) := by
      refine String.toList_injective ?_
      rw [Output.sqlText_cons, Output.sqlText_cons, String.toList_append]
      rfl
    have read := readStatements_tokens h hd
    rw [← spaced] at read
    rw [text, Output.statements?_sqlText whole.legible]
    exact congrArg Except.toOption read
  have converts : Expr.ofSyntax e.toSyntax = .ok e.reread := convertsSteps.exprs he
  have lone := loneItem?_toSyntax (isWildcard_of_readable he) items sources single
  delta Expr.read
  simp only [statement, lone]
  exact congrArg lift converts

/-- The text of a query without sources, from after its SELECT on, is read as its only item,
whatever clauses stand before and after the item. -/
theorem clauses_dropped (h : q.isReadable = true) (hd : q.depth ≤ 48)
    (he : e.isReadable = true) (items : q.items = [e.item]) (ctes : q.ctes = [])
    (sources : q.sources = []) (single : q.setOperation = none) :
    ∃ text, q.sql = "SELECT" ++ text ∧ Expr.read text = .ok e.reread := by
  obtain ⟨ts, tokens⟩ : ∃ ts, q.tokens = .mark .select :: ts := by
    rw [Query.tokens_parts, ctes, Query.bodyTokens, single, Query.selectTokens]
    exact ⟨_, rfl⟩
  refine ⟨sqlText ts, ?_, ?_⟩
  · refine String.toList_injective ?_
    rw [Query.sql, tokens, Output.sqlText_cons, String.toList_append]
    rfl
  · have neat := neatSteps.queries h
    rw [tokens] at neat
    exact read_spelled neat.tail (by rw [tokens]) h hd he items sources single

/-- Whether a text is read as an expression, and refused in parentheses on its own lines. -/
def isReadInPart (text : String) (e : Expr) : Bool :=
  (Expr.read text).toOption.any (· == e) && (Expr.read ("(\n" ++ text ++ "\n)")).toOption.isNone

/-- A condition after an expression is dropped, and DISTINCT before it. -/
theorem filtered_total_is_total :
    isReadInPart "DISTINCT total" (.col "total") = true ∧
    isReadInPart "SUM(total) WHERE tip = tax" (Expr.col "total").sum = true := by
  decide +kernel

/-! ### What is kept -/

/-- The tokens of a select list with one item over no source. -/
theorem spelled_ofItem : spelled (Query.ofItems [e.item]).tokens =
    spelled (.mark .select :: .mark .space :: e.tokens) := by
  rw [Query.tokens_parts]
  simp [Query.ofItems, Query.empty, Query.bodyTokens, Query.selectTokens, definitionTokens,
    itemTokens, itemGroups, SelectItem.tokens, Expr.item, aliasTokens, Output.separated, listTokens,
    sourceGroups, exprGroups, orderGroups, whereTokens, havingTokens, rowTokens,
    Output.Mark.spelling]

theorem isReadable_ofItem (h : e.isReadable = true) (top : opener e.tokens ≠ some "TOP") :
    (Query.ofItems [e.item]).isReadable = true := by
  have plain : opener (itemGroups [e.item]).flatten ≠ some "TOP" := by
    simpa [itemGroups, SelectItem.tokens, Expr.item, aliasTokens] using top
  have item : itemsReadable [e.item] = true := by
    simp [itemsReadable, Expr.item, h]
  have body : (Query.ofItems [e.item]).bodyReadable = true := by
    simp [Query.bodyReadable, Query.ofItems, Query.empty, item, plain, sourcesReadable,
      optionReadable, keysReadable]
  rw [Query.isReadable_eq, body]
  rfl

theorem depth_ofItem : (Query.ofItems [e.item]).depth = e.depth + 1 := by
  rw [Query.depth_eq]
  simp [Query.ofItems, Query.empty, Query.bodyDepth, ctesDepth, itemsDepth, Expr.item,
    sourcesDepth, optionDepth, exprsDepth, ordersDepth]

/-- Tokens that are those of an expression but for the blanks are read as the expression. -/
theorem read_spaced (neat : Neat ts) (same : spelled ts = spelled e.tokens)
    (h : e.isReadable = true) (top : opener e.tokens ≠ some "TOP") (hd : e.depth < 48) :
    Expr.read (sqlText ts) = .ok e.reread := by
  have tokens : spelled (.mark .select :: ts) = spelled (Query.ofItems [e.item]).tokens := by
    rw [spelled_ofItem, Output.spelled_cons, Output.spelled_cons, same]
    rfl
  exact read_spelled neat tokens (isReadable_ofItem h top) (by rw [depth_ofItem]; omega) h rfl rfl
    rfl

/-- The text of an expression is read as the expression, and in parentheses on its own lines as the
expression in parentheses. -/
theorem read_in_parens (h : e.isReadable = true) (top : opener e.tokens ≠ some "TOP")
    (hd : e.depth + 1 < 48) :
    Expr.read e.sql = .ok e.reread ∧
      Expr.read ("(\n" ++ e.sql ++ "\n)") = .ok (.paren e.reread) := by
  have own := neatSteps.exprs h
  refine ⟨read_spaced own rfl h top (by omega), ?_⟩
  have neat : Neat ([.mark .leftParen, .mark .newline]
      ++ (e.tokens ++ [.mark .newline, .mark .rightParen])) :=
    (leading_of [.mark .leftParen, .mark .newline] rfl).append
      (own.append (following_of [.mark .newline, .mark .rightParen] rfl))
  have same : spelled ([.mark .leftParen, .mark .newline]
      ++ (e.tokens ++ [.mark .newline, .mark .rightParen])) = spelled (Expr.paren e).tokens := by
    rw [Expr.tokens, spelled_parens, Output.spelled_append, Output.spelled_append]
    rfl
  have text : "(\n" ++ e.sql ++ "\n)" = sqlText ([.mark .leftParen, .mark .newline]
      ++ (e.tokens ++ [.mark .newline, .mark .rightParen])) := by
    refine String.toList_injective ?_
    simp [sqlText, Expr.sql, Token.render, Output.Mark.text]
  have opened : opener (Expr.paren e).tokens ≠ some "TOP" := by
    rw [Expr.tokens, opener, spelled_parens]
    intro same
    cases same
  rw [text]
  exact read_spaced neat same h opened hd

end ReportSql.Tree
