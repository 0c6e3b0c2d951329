import ReportSql.Proofs.ReadTrees

/-!
The text of a tree that can be read back is read as the syntax of the tree: FROM lists, the clauses
of queries, set operations and whole trees.
-/
namespace ReportSql.Tree

open Output (isWrittenBare nameToken spelled)
open Sql.Grammar (ReadsOption ReadsQuery ReadsSelectItem ReadsKey ReadsTable ReadsJoin ReadsSource
  ReadsCte ReadsOrder ReadsChain ReadsParts ReadsQueryParts SelectParts SelectTokens QueryParts
  QueryTokens Leads nesting setPrecedence clauseTokens directionTokens nullsTokens wordTokens
  joinForms conditionJoins notRelations setWords)
open Sql.Parse (commaJoined)

variable {n : Nat} {name k w : String} {ts : List Sql.Token} {groups : List (List Output.Token)}
  {e : Expr} {q : Query} {source : Source} {joins : List Join} {sources : List FromItem}
  {ctes : List Cte} {orders : List OrderItem} {items : List SelectItem} {rows : Option RowRange}
  {label : Option String}

/-! ### Sources -/

/-- Whether the text of a source is read as its syntax. -/
def Source.ReadBack (s : Source) : Prop :=
  ∀ n, s.depth ≤ n → ReadsTable (nesting n) (spelled s.tokens) s.toSyntax

theorem table_start (h : opener [.ident name] ≠ some "UNNEST") :
    (nameToken name).keyword?.getD "" ∉ notRelations := by
  refine getD_notMem (by decide) fun k hk same => ?_
  simp only [notRelations, List.mem_cons, List.not_mem_nil, or_false] at hk
  rcases hk with rfl | rfl | rfl
  · exact keyword?_name_ne (by decide +kernel) same
  · exact keyword?_name_ne (by decide +kernel) same
  · exact h (by simpa [opener] using same)

theorem readBack_named {t : TableRef}
    (h : opener [.ident (t.schema.getD t.table)] ≠ some "UNNEST") : (Source.named t).ReadBack := by
  intro n _
  obtain ⟨schema, table, label⟩ := t
  cases schema with
  | none =>
      have own := @ReadsTable.named (nesting n) table (!isWrittenBare table) (labelWord label)
        (table_start h)
      rw [wordIdent_name, aliasOf_label] at own
      have text : spelled (Source.named ⟨none, table, label⟩).tokens =
          nameToken table :: Sql.Grammar.aliasTokens (labelWord label) := by
        simp [Source.tokens, TableRef.tokens, spelled_alias]
      rw [text]
      exact own
  | some schema =>
      have own := @ReadsTable.qualified (nesting n) schema table (!isWrittenBare schema)
        (!isWrittenBare table) (labelWord label) (table_start h)
      rw [wordIdent_name, wordIdent_name, aliasOf_label] at own
      have text : spelled (Source.named ⟨some schema, table, label⟩).tokens =
          nameToken schema :: .symbol .period :: nameToken table ::
            Sql.Grammar.aliasTokens (labelWord label) := by
        simp [Source.tokens, TableRef.tokens, spelled_alias]
      rw [text]
      exact own

/-- Line breaks inside parentheses are not read. -/
theorem spelled_block : spelled (parens (.mark .newline :: (q.tokens ++ [.mark .newline]))) =
    .symbol .leftParen :: (spelled q.tokens ++ [.symbol .rightParen]) := by
  simp [spelled_parens, Output.Mark.spelling]

theorem Query.ReadBack.derived (h : q.ReadBack) : (Source.derived q label).ReadBack := by
  intro n hn
  simp only [Source.depth] at hn
  have own := @ReadsTable.derived _ _ _ (labelWord label) (h.inside (n := n) (by omega))
  rw [aliasOf_label] at own
  have text : spelled (Source.derived q label).tokens = .symbol .leftParen ::
      (spelled q.tokens ++ .symbol .rightParen ::
        Sql.Grammar.aliasTokens (labelWord label)) := by
    simp only [Source.tokens, Output.spelled_append, spelled_block, spelled_alias, List.cons_append,
      List.append_assoc, List.nil_append]
  rw [text]
  exact own

theorem Source.readBack (own : ∀ r ∈ source.query?, r.isReadable = true → r.ReadBack)
    (h : source.isReadable = true) : source.ReadBack := by
  cases source with
  | named table => exact readBack_named (by simpa [Source.isReadable] using h)
  | derived query label => exact (own query rfl h).derived
  | raw sql => cases h

/-! ### Joins -/

/-- The words of a join. -/
def JoinKind.words : JoinKind → List String
  | .inner => ["INNER", "JOIN"]
  | .left => ["LEFT", "JOIN"]
  | .right => ["RIGHT", "JOIN"]
  | .full => ["FULL", "OUTER", "JOIN"]
  | .cross => ["CROSS", "JOIN"]

theorem JoinKind.mem_joinForms (kind : JoinKind) : (kind.words, kind.toSyntax) ∈ joinForms := by
  cases kind <;> decide

theorem JoinKind.mem_conditionJoins {kind : JoinKind} (h : kind ≠ .cross) :
    (kind.words, kind.toSyntax) ∈ conditionJoins := by
  cases kind <;> first | decide | exact absurd rfl h

theorem spelled_joinKind (kind : JoinKind) :
    spelled (kind.tokens ++ spaced .join) = wordTokens kind.words := by
  cases kind <;> rfl

/-- The join that a join of a tree is read as. -/
def Join.toSyntax (j : Join) : Sql.Join :=
  ⟨false, j.kind.toSyntax, j.source.toSyntax, [], if j.condition.isSome then .on else .unmarked,
    optionSyntax j.condition⟩

theorem join_read {j : Join} (hs : j.source.ReadBack) (hc : ∀ e ∈ j.condition, e.ReadBack)
    (cross : j.kind ≠ .cross ∨ j.condition = none)
    (hn : max j.source.depth (optionDepth j.condition + 1) ≤ n) :
    ReadsJoin (nesting n) (spelled j.tokens) j.toSyntax := by
  obtain ⟨kind, source, condition⟩ := j
  simp only at hs hc cross hn
  have table := hs n (by omega)
  cases condition with
  | none =>
      have text : spelled (Join.mk kind source none).tokens =
          wordTokens kind.words ++ spelled source.tokens := by
        simp only [Join.tokens, List.append_nil, Output.spelled_append, ← spelled_joinKind]
      rw [text]
      exact .bare kind.mem_joinForms table
  | some e =>
      have item := (hc e rfl).item (n := n) (by simp only [optionDepth] at hn; omega)
      have conditional := cross.resolve_right nofun
      have text : spelled (Join.mk kind source (some e)).tokens = wordTokens kind.words ++
          (spelled source.tokens ++ .word "ON" false :: spelled e.tokens) := by
        simp only [Join.tokens, Output.spelled_append, ← spelled_joinKind, List.append_assoc]
        rfl
      rw [text]
      exact .on (JoinKind.mem_conditionJoins conditional) table item

theorem spelled_joins :
    spelled (joinTokens joins) = (joins.map fun j => spelled j.tokens).flatten := by
  induction joins with
  | nil => rfl
  | cons j joins ih =>
      simp only [joinTokens, List.cons_append, Output.spelled_cons, Output.spelled_append, ih,
        List.map_cons, List.flatten_cons]
      rfl

theorem joins_read (h : joinsReadable joins = true)
    (hs : ∀ j ∈ joins, j.source.isReadable = true → j.source.ReadBack)
    (hc : ∀ j ∈ joins, ∀ e ∈ j.condition, e.isReadable = true → e.ReadBack)
    (hn : joinsDepth joins ≤ n) :
    List.Forall₂ (ReadsJoin (nesting n)) (joins.map fun j => spelled j.tokens)
      (joinsSyntax joins) := by
  induction joins with
  | nil => exact .nil
  | cons j joins ih =>
      obtain ⟨source, sources⟩ := List.forall_mem_cons.mp hs
      obtain ⟨condition, conditions⟩ := List.forall_mem_cons.mp hc
      obtain ⟨kind, table, on⟩ := j
      simp only [joinsReadable, Bool.and_eq_true, Bool.or_eq_true, bne_iff_ne, ne_eq,
        Option.isNone_iff_eq_none] at h
      simp only [joinsDepth] at hn
      obtain ⟨⟨⟨readable, on_⟩, cross⟩, others⟩ := h
      have each : ∀ e ∈ on, e.ReadBack := by
        rintro e rfl
        exact condition e rfl on_
      exact .cons (join_read (j := ⟨kind, table, on⟩) (source readable) each cross
        (by simp only; omega)) (ih others sources conditions (by omega))

theorem source_read (hs : source.ReadBack) (hj : List.Forall₂ (ReadsJoin (nesting n))
      (joins.map fun j => spelled j.tokens) (joinsSyntax joins)) (hn : source.depth ≤ n) :
    ReadsSource (nesting n) (spelled (FromItem.mk source joins).tokens)
      ⟨source.toSyntax, joinsSyntax joins⟩ := by
  have text : spelled (FromItem.mk source joins).tokens =
      spelled source.tokens ++ (joins.map fun j => spelled j.tokens).flatten := by
    simp only [FromItem.tokens, Output.spelled_append, spelled_joins]
  rw [text]
  exact (hs n hn).source hj

/-- Whether the text of each part of an entry of a FROM list is read as its syntax if it can be
read back. -/
structure FromItem.ReadBack (f : FromItem) : Prop where
  sources : ∀ s ∈ f.allSources, s.isReadable = true → s.ReadBack
  conditions : ∀ j ∈ f.joins, ∀ e ∈ j.condition, e.isReadable = true → e.ReadBack

theorem sources_read (h : sourcesReadable sources = true) (own : ∀ f ∈ sources, f.ReadBack)
    (hn : sourcesDepth sources ≤ n) :
    List.Forall₂ (ReadsSource (nesting n)) ((sourceGroups sources).map spelled)
      (sourcesSyntax sources) := by
  induction sources with
  | nil => exact .nil
  | cons f sources ih =>
      obtain ⟨first, others⟩ := List.forall_mem_cons.mp own
      obtain ⟨source, joins⟩ := f
      simp only [sourcesReadable, Bool.and_eq_true] at h
      simp only [sourcesDepth] at hn
      obtain ⟨leading, joined⟩ := List.forall_mem_cons.mp first.sources
      have chain := joins_read h.1.2 (List.forall_mem_map.mp joined) first.conditions (n := n)
        (by omega)
      exact .cons (source_read (leading h.1.1) chain (by omega)) (ih h.2 others (by omega))

/-! ### Common table expressions -/

theorem spelling_newline : (Output.Token.mark .newline).spelling = [] := rfl

theorem ctes_read (h : ctesReadable ctes = true) (own : ∀ c ∈ ctes, c.query.ReadBack)
    (hn : ctesDepth ctes ≤ n) :
    List.Forall₂ (ReadsCte (nesting n)) ((cteGroups ctes).map spelled) (ctesSyntax ctes) := by
  induction ctes with
  | nil => exact .nil
  | cons c ctes ih =>
      obtain ⟨first, others⟩ := List.forall_mem_cons.mp own
      obtain ⟨name, columns, query, recursive⟩ := c
      simp only [ctesReadable, Bool.and_eq_true, Option.isNone_iff_eq_none] at h
      simp only [ctesDepth] at hn
      obtain ⟨⟨rfl, -⟩, readable⟩ := h
      have read := (first.inside (n := n) (by simp only; omega)).cte (w := name)
        (p := !isWrittenBare name)
      rw [wordIdent_name] at read
      have text : spelled (Cte.mk name none query recursive).tokens = nameToken name ::
          .word "AS" false :: .symbol .leftParen :: (spelled query.tokens ++
            [.symbol .rightParen]) := by
        simp only [Cte.tokens, List.cons_append, List.nil_append, Output.spelled_cons,
          Output.spelled_append, Output.spelling_ident, spelled_spaced, spelled_block]
        rfl
      refine .cons ?_ (ih readable others (by omega))
      rw [text]
      exact read

theorem spelled_definitions : spelled (definitionTokens ctes) =
    Sql.Grammar.withTokens (ctes.any Cte.isRecursive) ((cteGroups ctes).map spelled) := by
  unfold definitionTokens Sql.Grammar.withTokens
  rw [List.isEmpty_map, isEmpty_groups (cteGroups_eq ctes)]
  split
  · rfl
  · have separated : spelled (Output.separated [.mark .comma, .mark .newline] (cteGroups ctes)) =
        commaJoined ((cteGroups ctes).map spelled) := Output.spelled_separated rfl _
    cases ctes.any Cte.isRecursive <;>
      simp only [Output.spelled_cons, Output.spelled_append, separated, spelling_newline,
        Bool.false_eq_true, if_false, if_true, Output.spelled_nil, List.append_nil,
        List.nil_append] <;>
      rfl

/-! ### The order and number of rows -/

theorem orders_read (own : ∀ o ∈ orders, o.expr.ReadBack) (hn : ordersDepth orders + 1 ≤ n) :
    List.Forall₂ (ReadsOrder (nesting n)) ((orderGroups orders).map spelled)
      (ordersSyntax orders) := by
  induction orders with
  | nil => exact .nil
  | cons o orders ih =>
      obtain ⟨first, others⟩ := List.forall_mem_cons.mp own
      obtain ⟨expr, direction, nulls⟩ := o
      simp only [ordersDepth] at hn
      have read := (first.item (n := n) (by simp only; omega)).order
        (direction.map (· == .ascending)) (nulls.map (· == .first))
      have text : spelled (OrderItem.mk expr direction nulls).tokens = spelled expr.tokens ++
          (directionTokens (direction.map (· == .ascending)) ++
            nullsTokens (nulls.map (· == .first))) := by
        simp only [OrderItem.tokens, Output.spelled_append, List.append_assoc]
        rcases direction with _ | _ | _ <;> rcases nulls with _ | _ | _ <;> rfl
      refine .cons ?_ (ih others (by omega))
      rw [text]
      exact read

/-- The tokens of a number of rows after a word. -/
def countTokens (w : String) : Option UInt64 → List Sql.Token
  | none => []
  | some c => [.word w false, .number (toString (Output.rowCount c)) false]

theorem count_read {o : Option UInt64} :
    ReadsOption (nesting (n + 1)) [.word w false] (countTokens w o) (o.map countSyntax) := by
  cases o with
  | none => exact .none
  | some c => exact .some ⟨1, 200, by decide, Leads.number.whole.inside⟩

theorem spelled_rows : spelled (rowTokens rows) =
    countTokens "LIMIT" (rows.bind RowRange.limit) ++
      countTokens "OFFSET" (rows.bind RowRange.offset) := by
  rcases rows with _ | ⟨_ | _, _ | _⟩ <;> rfl

/-! ### Selects -/

theorem spelled_list {m : Output.Mark} (words : List String) (h : m.spelling = wordTokens words) :
    spelled (listTokens m groups) = clauseTokens words (groups.map spelled) := by
  unfold listTokens clauseTokens
  rw [List.isEmpty_map]
  split
  · rfl
  · simp only [Output.spelled_append, Output.spelled_commaSeparated, ← h]
    simp [lineStart, Output.Mark.spelling]

theorem spelled_items : spelled (itemTokens groups) = commaJoined (groups.map spelled) := by
  unfold itemTokens
  split
  · next empty =>
    rw [List.isEmpty_iff.mp empty]
    rfl
  · have separated : spelled (Output.separated [.mark .comma, .mark .newline, .indent 1] groups) =
        commaJoined (groups.map spelled) := by
      refine Output.spelled_separated ?_ _
      simp only [Output.spelled_cons, Output.spelling_indent]
      rfl
    simp only [Output.spelled_append, separated, Output.spelled_cons, Output.spelling_indent]
    rfl

theorem spelled_where {o : Option Expr} :
    spelled (whereTokens o) = optionTokens [.word "WHERE" false] o := by
  cases o with
  | none => rfl
  | some e =>
      simp only [whereTokens, Output.spelled_append]
      rfl

theorem spelled_having {o : Option Expr} :
    spelled (havingTokens o) = optionTokens [.word "HAVING" false] o := by
  cases o with
  | none => rfl
  | some e =>
      simp only [havingTokens, Output.spelled_append]
      rfl

/-- The tokens of the parts of a query that is no set operation. -/
def Query.selectParts (q : Query) : SelectTokens where
  items := (itemGroups q.items).map spelled
  sources := (sourceGroups q.sources).map spelled
  condition := optionTokens [.word "WHERE" false] q.condition
  keys := (exprGroups q.groupBy).map spelled
  having := optionTokens [.word "HAVING" false] q.having

theorem spelled_select : spelled q.selectTokens = q.selectParts.all q.distinct := by
  have distinct : spelled (if q.distinct then [.mark .space, .mark .distinct] else []) =
      Sql.Grammar.distinctTokens q.distinct := by
    cases q.distinct <;> rfl
  simp only [Query.selectTokens, Output.spelled_cons, Output.spelled_append, distinct,
    spelled_items, spelled_where, spelled_having,
    spelled_list ["FROM"] (show Output.Mark.from.spelling = _ from rfl),
    spelled_list ["GROUP", "BY"] (show Output.Mark.groupBy.spelling = _ from rfl),
    SelectTokens.all, SelectTokens.clauses, Query.selectParts]
  rfl

/-- What a query that is no set operation is read as, up to the clauses around it. -/
def Query.selectSyntax (q : Query) : SelectParts where
  distinct := q.distinct
  items := itemsSyntax q.items
  sources := sourcesSyntax q.sources
  condition := optionSyntax q.condition
  keys := exprsSyntax q.groupBy
  having := optionSyntax q.having

theorem head_commaJoined {ts : List Sql.Token} {groups : List (List Sql.Token)} (h : ts ≠ []) :
    (commaJoined (ts :: groups)).head? = ts.head? := by
  cases groups with
  | nil => rfl
  | cons us groups => exact List.head?_append_of_ne_nil _ h

/-- A list of groups starts as its first group does. -/
theorem opener_groups (nonempty : ∀ g ∈ groups, spelled g ≠ [])
    (h : opener groups.flatten ≠ some k) :
    ∀ t ∈ (commaJoined (groups.map spelled)).head?, t.keyword? ≠ some k := by
  cases groups with
  | nil => exact nofun
  | cons group groups =>
      obtain ⟨first, -⟩ := List.forall_mem_cons.mp nonempty
      rw [List.map_cons, head_commaJoined first]
      have same : (spelled (group :: groups).flatten).head? = (spelled group).head? := by
        rw [List.flatten_cons, Output.spelled_append, List.head?_append_of_ne_nil _ first]
      intro t ht
      refine opener_ne h t ?_
      rw [same]
      exact ht

/-! ### Bodies -/

/-- Whether the text of a set operation is read as its syntax, and may go on from there. -/
def SetOperation.ReadBack (o : SetOperation) : Prop :=
  ∀ n, o.depth ≤ n → ReadsChain (nesting n) (setPrecedence o.op) (spelled o.tokens) o.toSyntax

/-- The word of a set operator. -/
def setWord : Sql.SetOperator → String
  | .union => "UNION"
  | .intersect => "INTERSECT"
  | .except => "EXCEPT"

theorem mem_setWords (op : Sql.SetOperator) : (setWord op, op) ∈ setWords := by
  cases op <;> decide

/-- The left operand of a set operation is read as a chain, in parentheses or without. -/
theorem operand_read {op : Sql.SetOperator} (h : q.ReadBack)
    (hn : (if q.isBareSetOperation then q.depth else q.depth + 1) ≤ n)
    (tight : q.isBareSetOperation = true →
      ∀ inner ∈ q.lastOperator, setPrecedence op ≤ setPrecedence inner) :
    ∃ edge, setPrecedence op ≤ edge ∧ ReadsChain (nesting n) edge
      (spelled (if q.isBareSetOperation then q.tokens else parens q.tokens))
      (if q.isBareSetOperation then q.toSyntax.body else .query q.toSyntax) := by
  by_cases bare : q.isBareSetOperation = true
  · obtain ⟨o, operation⟩ : ∃ o, q.setOperation = some o := by
      simp only [Query.isBareSetOperation, Bool.and_eq_true, Option.isSome_iff_exists] at bare
      exact bare.1.1.1
    have last : o.op ∈ q.lastOperator := by simp [Query.lastOperator, operation]
    simp only [bare, if_true] at hn ⊢
    exact ⟨_, tight bare _ last, h.chain bare n hn _ last⟩
  · simp only [bare, Bool.false_eq_true, if_false, spelled_parens] at hn ⊢
    exact ⟨_, le_refl _, .parens (h.inside hn)⟩

theorem Query.ReadBack.operation {l r : Query} {op : Sql.SetOperator} {all : Bool}
    (hl : l.ReadBack) (hr : r.ReadBack) (tight : l.isBareSetOperation = true →
      ∀ inner ∈ l.lastOperator, setPrecedence op ≤ setPrecedence inner) :
    (SetOperation.mk l op all r).ReadBack := by
  intro n hn
  simp only [SetOperation.depth] at hn
  obtain ⟨edge, left, chain⟩ := operand_read hl (n := n) (by omega) tight
  have right := hr.inside (n := n) (by omega)
  have text : spelled (SetOperation.mk l op all r).tokens =
      spelled (if l.isBareSetOperation then l.tokens else parens l.tokens) ++
        .word (setWord op) false :: (Sql.Grammar.allTokens all ++
          .symbol .leftParen :: (spelled r.tokens ++ [.symbol .rightParen])) := by
    simp only [SetOperation.tokens, Output.spelled_append, spelled_parens, List.append_assoc]
    cases op <;> cases all <;> rfl
  rw [text]
  exact chain.operation (mem_setWords op) right left

theorem SetOperation.readBack {o : SetOperation}
    (own : ∀ r ∈ o.sides, r.isReadable = true → r.ReadBack) (h : o.isReadable = true) :
    o.ReadBack := by
  obtain ⟨left, op, all, right⟩ := o
  simp only [SetOperation.sides, List.mem_cons, List.not_mem_nil, or_false, forall_eq_or_imp,
    forall_eq] at own
  simp only [SetOperation.isReadable, Bool.and_eq_true, Bool.or_eq_true, Bool.not_eq_true',
    Option.all_eq_true, decide_eq_true_eq] at h
  obtain ⟨⟨first, second⟩, tight⟩ := h
  exact (own.1 first).operation (own.2 second) fun bare => tight.resolve_left (by simp [bare])

/-! ### Queries -/

def Query.bodyDepth (q : Query) : Nat :=
  match q.setOperation with
  | some operation => operation.depth
  | none => max (itemsDepth q.items) (max (sourcesDepth q.sources)
    (max (optionDepth q.condition + 1) (max (exprsDepth q.groupBy + 1)
      (optionDepth q.having + 1))))

theorem Query.depth_eq (q : Query) :
    q.depth = max (ctesDepth q.ctes) (max q.bodyDepth (ordersDepth q.orderBy + 1)) := by
  obtain ⟨_, _, _, _, _, _, _, _, _, operation⟩ := q
  cases operation <;> rfl

/-- The tokens of the parts of a query. -/
def Query.parts (q : Query) : QueryTokens where
  ctes := (cteGroups q.ctes).map spelled
  body := spelled q.bodyTokens
  orders := (orderGroups q.orderBy).map spelled
  limit := countTokens "LIMIT" (q.rows.bind RowRange.limit)
  offset := countTokens "OFFSET" (q.rows.bind RowRange.offset)

theorem spelled_query : spelled q.tokens = q.parts.all (q.ctes.any Cte.isRecursive) := by
  rw [Query.tokens_parts]
  simp only [Output.spelled_append, spelled_definitions, spelled_rows,
    spelled_list ["ORDER", "BY"] (show Output.Mark.orderBy.spelling = _ from rfl)]
  rfl

/-- What the parts of a query are read as. -/
def Query.partsSyntax (q : Query) : QueryParts where
  isRecursive := q.ctes.any Cte.isRecursive
  ctes := ctesSyntax q.ctes
  body := q.toSyntax.body
  orders := ordersSyntax q.orderBy
  limit := (q.rows.bind RowRange.limit).map countSyntax
  offset := (q.rows.bind RowRange.offset).map countSyntax

theorem Query.toSyntax_parts (q : Query) : q.toSyntax = q.partsSyntax.query := by
  obtain ⟨_, _, _, _, _, _, _, _, _, operation⟩ := q
  cases operation <;> rfl

/-- Whether the text of each part of a query is read as its syntax if it can be read back. -/
structure Query.PartsReadBack (q : Query) : Prop where
  exprs : ∀ e ∈ q.exprs, e.isReadable = true → e.ReadBack
  operands : ∀ r ∈ q.operands, r.isReadable = true → r.ReadBack

theorem Query.PartsReadBack.fromItem {f : FromItem} (h : q.PartsReadBack) (hf : f ∈ q.sources) :
    f.ReadBack where
  sources _ hs := Source.readBack fun r hr => h.operands r (source_mem_operands hf hs hr)
  conditions _ hj e he := h.exprs e (joinCondition_mem_exprs hf hj he)

theorem Query.PartsReadBack.operation {o : SetOperation} (h : q.PartsReadBack)
    (ho : o ∈ q.setOperation) : o.isReadable = true → o.ReadBack :=
  SetOperation.readBack fun r hr => h.operands r (side_mem_operands ho hr)

theorem groups_nonempty {α : Type} {R : List Sql.Token → α → Prop} {as : List α}
    (h : List.Forall₂ R (groups.map spelled) as) (each : ∀ {ts a}, R ts a → ts ≠ []) :
    ∀ g ∈ groups, spelled g ≠ [] := by
  induction groups generalizing as with
  | nil => exact fun _ hg => absurd hg List.not_mem_nil
  | cons g groups ih =>
      cases h with
      | cons own others => exact List.forall_mem_cons.mpr ⟨each own, ih others⟩

theorem select_read (h : q.PartsReadBack) (plain : q.setOperation = none)
    (hr : q.bodyReadable = true) (hn : q.bodyDepth ≤ n) :
    ReadsParts (nesting n) q.selectParts q.selectSyntax := by
  simp only [Query.bodyReadable, plain, Bool.and_eq_true, Bool.not_eq_true', bne_iff_ne, ne_eq,
    optionReadable_iff] at hr
  simp only [Query.bodyDepth, plain] at hn
  obtain ⟨⟨⟨⟨⟨⟨nonempty, readable⟩, top⟩, sources⟩, condition⟩, keys⟩, having⟩ := hr
  have items := items_read readable (fun i hi => h.exprs _ (item_mem_exprs hi)) (n := n) (by omega)
  exact {
    items
    nonempty := by
      intro empty
      have none := isEmpty_groups (itemGroups_eq q.items)
      rw [nonempty, List.isEmpty_eq_false_iff] at none
      exact none (List.map_eq_nil_iff.mp empty)
    top := opener_groups (groups_nonempty items ReadsSelectItem.nonempty) top
    sources := sources_read sources (fun f hf => h.fromItem hf) (by omega)
    condition := option_read _ (fun e he => h.exprs e (condition_mem_exprs he) (condition e he))
      (by omega)
    keys := keys_read keys (fun e he => h.exprs e (key_mem_exprs he)) (by omega)
    having := option_read _ (fun e he => h.exprs e (having_mem_exprs he) (having e he)) (by omega)
    empty := nothingEmpty }

theorem toSyntax_select (h : q.setOperation = none) :
    q.toSyntax.body = .select q.selectSyntax.select := by
  obtain ⟨_, _, _, _, _, _, _, _, _, _⟩ := q
  cases h
  rfl

theorem toSyntax_operation {o : SetOperation} (h : q.setOperation = some o) :
    q.toSyntax.body = o.toSyntax := by
  obtain ⟨_, _, _, _, _, _, _, _, _, _⟩ := q
  cases h
  rfl

theorem body_read (h : q.PartsReadBack) (hr : q.bodyReadable = true) (hn : q.bodyDepth ≤ n) :
    Sql.Grammar.ReadsBody (nesting n) (spelled q.bodyTokens) q.toSyntax.body := by
  cases operation : q.setOperation with
  | none =>
      have body := (select_read h operation hr hn).body
      have text : q.bodyTokens = q.selectTokens := by simp only [Query.bodyTokens, operation]
      rw [text, spelled_select, toSyntax_select operation]
      exact body
  | some o =>
      simp only [Query.bodyReadable, Query.bodyDepth, operation] at hr hn
      have body := (h.operation operation hr n hn).whole
      have text : q.bodyTokens = o.tokens := by simp only [Query.bodyTokens, operation]
      rw [text, toSyntax_operation operation]
      exact body

/-- A body is read at least one level down. -/
theorem bodyDepth_pos (q : Query) : 0 < q.bodyDepth := by
  unfold Query.bodyDepth
  split
  · next o _ =>
    obtain ⟨left, op, all, right⟩ := o
    simp only [SetOperation.depth]
    omega
  · omega

theorem Query.PartsReadBack.reads (h : q.PartsReadBack) (hr : q.isReadable = true)
    (hn : q.depth ≤ n) : ReadsQueryParts (nesting n) q.parts q.partsSyntax := by
  rw [Query.isReadable_eq] at hr
  simp only [Bool.and_eq_true, bne_iff_ne, ne_eq] at hr
  rw [Query.depth_eq] at hn
  obtain ⟨⟨⟨⟨definitions, plain⟩, body⟩, orders⟩, -⟩ := hr
  have positive := bodyDepth_pos q
  obtain ⟨m, rfl⟩ : ∃ m, n = m + 1 := ⟨n - 1, by omega⟩
  have ctes := ctes_read definitions
    (fun c hc => h.operands _ (cte_mem_operands hc) (ctesReadable_parts definitions c hc).2)
    (n := m + 1) (by omega)
  exact {
    ctes
    recursive := by
      intro recursive empty
      rw [Query.parts, List.map_eq_nil_iff, cteGroups_eq, List.map_eq_nil_iff] at empty
      simp [Query.partsSyntax, empty] at recursive
    plain := opener_groups (groups_nonempty ctes ReadsCte.nonempty) plain
    body := body_read h body (by omega)
    orders := orders_read
      (fun o ho => h.exprs _ (order_mem_exprs ho) (ordersReadable_iff.mp orders o ho)) (by omega)
    limit := count_read
    offset := count_read }

theorem Query.PartsReadBack.whole (h : q.PartsReadBack) (hr : q.isReadable = true) :
    q.ReadBack where
  reads n hn := by
    rw [spelled_query, Query.toSyntax_parts]
    exact (h.reads hr hn).inside
  chain bare n hn op last := by
    simp only [Query.isBareSetOperation, Bool.and_eq_true, Option.isSome_iff_exists,
      List.isEmpty_iff, Option.isNone_iff_eq_none] at bare
    obtain ⟨⟨⟨⟨o, operation⟩, noCtes⟩, noOrder⟩, noRows⟩ := bare
    obtain ⟨ctes, _, _, _, _, _, _, orderBy, rows, _⟩ := q
    obtain rfl : _ = some o := operation
    obtain rfl : ctes = [] := noCtes
    obtain rfl : orderBy = [] := noOrder
    obtain rfl : rows = none := noRows
    obtain rfl : o.op = op := by simpa [Query.lastOperator] using last
    rw [Query.isReadable_eq] at hr
    rw [Query.depth_eq] at hn
    simp only [Query.bodyReadable, Query.bodyDepth, Bool.and_eq_true] at hr hn
    rw [Query.tokens_parts]
    simp only [definitionTokens, Query.bodyTokens, listTokens, orderGroups, rowTokens,
      List.isEmpty_nil, if_true, List.nil_append, List.append_nil]
    exact h.operation rfl hr.1.1.2 n (by omega)

/-! ### Trees -/

/-- The text of a tree that can be read back is read as the syntax of the tree. -/
theorem readBackSteps : ReadableSteps Expr.ReadBack Query.ReadBack where
  column h _ _ := (reads_column h).whole
  literal h _ _ := (reads_literal h).whole
  param _ _ _ := Leads.text.whole
  binary left right tight loose := left.binary right tight loose
  not operand tight start := operand.not tight start
  minus operand tight _ := operand.minus tight
  call _ start readable nonempty own := .call start readable nonempty own
  case operand nonempty branches otherwise := .case operand nonempty branches otherwise
  subquery query start := query.subquery start
  existence query := query.exists
  inList operand values := .inList operand values
  inQuery operand query start tight := query.inQuery operand start tight
  between operand low high left middle ends right := operand.between low high left middle ends right
  isNull operand tight := operand.isNull tight
  isTruth operand tight := operand.isTruth tight
  cast operand _ type := operand.cast type
  interval := readBack_interval
  paren inner := inner.paren
  raw h _ _ := (reads_raw h).whole
  query h exprs operands := Query.PartsReadBack.whole ⟨exprs, operands⟩ h

/-- The tokens of a query are read as the one statement that is the syntax of the query. -/
theorem readStatements_tokens (h : q.isReadable = true) (hd : q.depth ≤ 48) :
    Sql.readStatements (spelled q.tokens) = .ok [.query q.toSyntax] := by
  have parts : q.PartsReadBack := ⟨fun _ _ => readBackSteps.exprs, fun _ _ => readBackSteps.queries⟩
  refine Sql.Grammar.readStatements_query ((readBackSteps.queries h).reads 48 hd) ?_
  rw [spelled_query]
  exact (parts.reads h hd).starts

end ReportSql.Tree
