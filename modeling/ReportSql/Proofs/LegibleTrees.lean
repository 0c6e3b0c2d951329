import ReportSql.Proofs.ReadBack

/-!
The tokens of a tree that can be read back are legible: none of them runs into the next one. Each
part of a construct ends in a token that any break can follow, and what joins two parts starts with
a break and ends in a token that anything can follow.
-/
namespace ReportSql.Tree

open Output (Token Mark Legible Spaced fits commaSeparated separated)

variable {a b t : Token} {ts us gs sep : List Token} {groups : List (List Token)}
  {e l r : Expr} {name type : String} {negated : Bool}

/-! ### Tokens side by side -/

/-- Whether a break can follow a token. -/
def endsPart (t : Token) : Bool := !t.isOperator && t != .mark .minus && t != .mark .dot

/-- Whether tokens are plain, and no two of them run into each other. -/
def isChained : List Token → Bool
  | [] => true
  | [t] => t.isPlain
  | a :: b :: rest => a.isPlain && fits a b && isChained (b :: rest)

theorem fits_break (ha : endsPart a = true) (hb : b.isBreak = true) : fits a b = true := by
  simp only [endsPart, Bool.and_eq_true, Bool.not_eq_true', bne_iff_ne, ne_eq] at ha
  obtain ⟨⟨operator, minus⟩, dot⟩ := ha
  unfold fits
  split
  · rfl
  · rw [if_neg (by simp [operator])]
    split
    · exact hb
    · split
      · exact absurd rfl minus
      · exact absurd rfl dot
      · simp [Token.endsName, hb]

theorem fits_free (ha : a.isFree = true) : fits a b = true := by
  simp [fits, ha]

theorem endsPart_of_free (h : t.isFree = true) : endsPart t = true := by
  cases t with
  | mark m => cases m <;> first | rfl | cases h
  | _ => first | rfl | cases h

theorem isChained_cons (ht : t.isPlain = true) (hf : ∀ u ∈ us.head?, fits t u = true)
    (h : isChained us = true) : isChained (t :: us) = true := by
  cases us with
  | nil => exact ht
  | cons u us => simp only [isChained, ht, hf u rfl, h, Bool.and_self]

theorem isChained_append (ht : isChained ts = true) (hu : isChained us = true)
    (hf : ∀ a ∈ ts.getLast?, ∀ b ∈ us.head?, fits a b = true) : isChained (ts ++ us) = true := by
  induction ts with
  | nil => exact hu
  | cons a ts ih =>
      cases ts with
      | nil => exact isChained_cons ht (hf a rfl) hu
      | cons b ts =>
          simp only [isChained, Bool.and_eq_true] at ht
          rw [List.getLast?_cons_cons] at hf
          refine isChained_cons ht.1.1 ?_ (ih ht.2 hf)
          rintro _ ⟨⟩
          exact ht.1.2

/-! ### Parts of constructs -/

/-- Tokens that any break can follow. -/
structure Neat (ts : List Token) : Prop where
  chained : isChained ts = true
  ends : ∀ t ∈ ts.getLast?, endsPart t = true

/-- Tokens that anything can follow. -/
structure Leading (ts : List Token) : Prop where
  chained : isChained ts = true
  ends : ∀ t ∈ ts.getLast?, t.isFree = true

/-- Tokens that can follow a part: they start with a break, if there are any. -/
structure Following (ts : List Token) : Prop extends Neat ts where
  starts : AtBreak ts

/-- Tokens that can stand between two parts. -/
structure Between (ts : List Token) : Prop extends Leading ts where
  starts : AtBreak ts
  nonempty : ts ≠ []

theorem Leading.neat (h : Leading ts) : Neat ts :=
  ⟨h.chained, fun t ht => endsPart_of_free (h.ends t ht)⟩

theorem last_append {P : Token → Prop} (ht : ∀ t ∈ ts.getLast?, P t) (hu : ∀ t ∈ us.getLast?, P t) :
    ∀ t ∈ (ts ++ us).getLast?, P t := by
  rw [List.getLast?_append]
  cases last : us.getLast? with
  | none => simpa using ht
  | some u => simpa using hu u last

theorem Leading.append (ht : Leading ts) (hu : Neat us) : Neat (ts ++ us) where
  chained := isChained_append ht.chained hu.chained fun a ha _ _ => fits_free (ht.ends a ha)
  ends := last_append ht.neat.ends hu.ends

theorem Neat.leading (ht : Neat ts) (hg : Between gs) : Leading (ts ++ gs) where
  chained := isChained_append ht.chained hg.chained fun a ha b hb =>
    fits_break (ht.ends a ha) (hg.starts b hb)
  ends t last := by
    rw [List.getLast?_append_of_ne_nil _ hg.nonempty] at last
    exact hg.ends t last

theorem Neat.append (ht : Neat ts) (hu : Following us) : Neat (ts ++ us) where
  chained := isChained_append ht.chained hu.chained fun a ha b hb =>
    fits_break (ht.ends a ha) (hu.starts b hb)
  ends := last_append ht.ends hu.ends

theorem atBreak_append (ht : AtBreak ts) (hu : AtBreak us) : AtBreak (ts ++ us) := by
  cases ts with
  | nil => exact hu
  | cons t ts => exact ht

theorem Following.append (ht : Following ts) (hu : Following us) : Following (ts ++ us) where
  toNeat := ht.toNeat.append hu
  starts := atBreak_append ht.starts hu.starts

theorem Following.nil : Following [] := ⟨⟨rfl, nofun⟩, nofun⟩

theorem Between.append (hg : Between gs) (hu : Neat us) : Following (gs ++ us) where
  toNeat := hg.toLeading.append hu
  starts := by
    obtain ⟨g, gs, rfl⟩ := List.exists_cons_of_ne_nil hg.nonempty
    exact hg.starts

theorem Neat.between (ht : Neat ts) (hg : Between gs) (hu : Neat us) : Neat (ts ++ (gs ++ us)) :=
  ht.append (hg.append hu)

theorem neat_separated (hs : Between sep) (h : ∀ g ∈ groups, Neat g) :
    Neat (separated sep groups) := by
  induction groups with
  | nil => exact Following.nil.toNeat
  | cons g groups ih =>
      obtain ⟨own, others⟩ := List.forall_mem_cons.mp h
      cases groups with
      | nil => exact own
      | cons h groups =>
          have more := own.between hs (ih others)
          rwa [← List.append_assoc] at more

/-- Tokens that a break can follow are legible by themselves. -/
theorem Neat.legible (h : Neat ts) : Legible ts := by
  induction ts with
  | nil => exact ⟨fun _ ht => absurd ht List.not_mem_nil, trivial⟩
  | cons a ts ih =>
      cases ts with
      | nil =>
          have ends := h.ends a rfl
          simp only [endsPart, Bool.and_eq_true, Bool.not_eq_true'] at ends
          exact ⟨List.forall_mem_singleton.mpr h.chained, ends.1.1⟩
      | cons b ts =>
          obtain ⟨chained, ends⟩ := h
          simp only [isChained, Bool.and_eq_true] at chained
          rw [List.getLast?_cons_cons] at ends
          have more := ih ⟨chained.2, ends⟩
          exact ⟨List.forall_mem_cons.mpr ⟨chained.1.1, more.plain⟩, chained.1.2, more.spaced⟩

theorem neat_of (ts : List Token) (h : (isChained ts && ts.getLast?.all endsPart) = true) :
    Neat ts := by
  simp only [Bool.and_eq_true, Option.all_eq_true] at h
  exact ⟨h.1, h.2⟩

theorem leading_of (ts : List Token) (h : (isChained ts && ts.getLast?.all Token.isFree) = true) :
    Leading ts := by
  simp only [Bool.and_eq_true, Option.all_eq_true] at h
  exact ⟨h.1, h.2⟩

theorem following_of (ts : List Token)
    (h : (isChained ts && ts.getLast?.all endsPart && ts.head?.all Token.isBreak) = true) :
    Following ts := by
  simp only [Bool.and_eq_true, Option.all_eq_true] at h
  exact ⟨⟨h.1.1, h.1.2⟩, h.2⟩

theorem between_of (gs : List Token)
    (h : (isChained gs && gs.getLast?.all Token.isFree && gs.head?.any Token.isBreak) = true) :
    Between gs := by
  simp only [Bool.and_eq_true, Option.all_eq_true] at h
  cases gs with
  | nil => simp at h
  | cons g gs =>
      refine ⟨⟨h.1.1, h.1.2⟩, ?_, List.cons_ne_nil _ _⟩
      rintro _ ⟨⟩
      exact h.2

theorem Neat.parens (h : Neat ts) : Neat (parens ts) := by
  have closed := h.append (following_of [.mark .rightParen] rfl)
  exact (leading_of [.mark .leftParen] rfl).append closed

/-! ### Expressions -/

theorem neat_column (table : Option String) : Neat (Expr.column table name).tokens := by
  cases table <;> exact neat_of _ rfl

theorem neat_literal {value : Literal} (h : value.isReadable = true) : Neat [value.token] := by
  cases value with
  | int v => exact ⟨h, by rintro _ ⟨⟩; rfl⟩
  | float v => cases h
  | _ => exact neat_of _ rfl

theorem neat_raw {sql : String} (h : Sql.isNumeral sql = true) : Neat (Expr.raw sql).tokens where
  chained := by simp [Expr.tokens, isChained, Token.isPlain, h]
  ends := by
    rintro _ ⟨⟩
    rfl

theorem between_operator (op : BinaryOp) :
    Between (.mark .space :: (op.tokens ++ [.mark .space])) := by
  cases op <;> exact between_of _ rfl

theorem Neat.binary {op : BinaryOp} (hl : Neat l.tokens) (hr : Neat r.tokens) :
    Neat (Expr.binary l op r).tokens := by
  simpa [Expr.tokens] using hl.between (between_operator op) hr

theorem Neat.not (h : Neat e.tokens) : Neat (Expr.unary .not e).tokens :=
  (leading_of [.mark .not, .mark .space] rfl).append h

/-- A sign stands right before its operand. -/
theorem Neat.minus (h : Neat e.tokens) (signed : e.tokens.head?.any Token.canBeSigned = true) :
    Neat (Expr.unary .minus e).tokens where
  chained := by
    refine isChained_cons rfl (fun u hu => ?_) h.chained
    rw [Option.mem_def.mp hu] at signed
    exact signed
  ends := by
    show ∀ t ∈ (Token.mark .minus :: e.tokens).getLast?, endsPart t = true
    cases tokens : e.tokens with
    | nil => simp [tokens] at signed
    | cons t ts =>
        rw [List.getLast?_cons_cons]
        rw [tokens] at h
        exact h.ends

theorem between_comma : Between [.mark .comma, .mark .space] := between_of _ rfl

theorem neat_commaSeparated (h : ∀ g ∈ groups, Neat g) : Neat (commaSeparated groups) :=
  neat_separated between_comma h

theorem neat_exprs {es : List Expr} (h : ∀ e ∈ es, Neat e.tokens) :
    Neat (commaSeparated (exprGroups es)) := by
  rw [exprGroups_eq]
  exact neat_commaSeparated (List.forall_mem_map.mpr h)

theorem Neat.call {arguments : List Expr} {distinct : Bool}
    (hn : Sql.Placeholder.isName (Text.upper name) = true) (h : ∀ e ∈ arguments, Neat e.tokens) :
    Neat (Expr.call name arguments distinct).tokens := by
  have quantifier : Leading (if distinct then [.mark .distinct, .mark .space] else []) := by
    cases distinct <;> exact leading_of _ rfl
  have opening : Leading [.function name, .mark .leftParen] :=
    ⟨by simp [isChained, Token.isPlain, hn, fits, Token.isFree, Token.isOperator, Token.isNumber,
      Token.endsName], by rintro _ ⟨⟩; rfl⟩
  have inside := (quantifier.append (neat_exprs h)).append
    (following_of [.mark .rightParen] rfl)
  simpa [Expr.tokens, Tree.parens] using opening.append inside

theorem following_spaced {o : Option Expr} (h : ∀ e ∈ o, Neat e.tokens) :
    Following (spacedTokens o) := by
  cases o with
  | none => exact .nil
  | some e => exact (between_of [.mark .space] rfl).append (h e rfl)

theorem following_else {o : Option Expr} (h : ∀ e ∈ o, Neat e.tokens) :
    Following (elseTokens o) := by
  cases o with
  | none => exact .nil
  | some e => exact (between_of (spaced .else) rfl).append (h e rfl)

theorem following_branches {branches : List Branch}
    (h : ∀ b ∈ branches, Neat b.condition.tokens ∧ Neat b.result.tokens) :
    Following (branchTokens branches) := by
  induction branches with
  | nil => exact .nil
  | cons b branches ih =>
      obtain ⟨own, others⟩ := List.forall_mem_cons.mp h
      obtain ⟨condition, result⟩ := b
      have then_ := (between_of (spaced .then) rfl).append own.2
      have when_ := (between_of (spaced .when) rfl).append (own.1.append then_)
      simpa [branchTokens] using when_.append (ih others)

theorem Neat.case {operand otherwise : Option Expr} {branches : List Branch}
    (ho : ∀ e ∈ operand, Neat e.tokens)
    (hb : ∀ b ∈ branches, Neat b.condition.tokens ∧ Neat b.result.tokens)
    (he : ∀ e ∈ otherwise, Neat e.tokens) : Neat (Expr.case operand branches otherwise).tokens := by
  have ends := (following_else he).append (following_of [.mark .space, .mark .end] rfl)
  have parts := (following_spaced ho).append ((following_branches hb).append ends)
  rw [Expr.tokens_case]
  exact (neat_of [.mark .case] rfl).append parts

theorem Neat.exists {q : Query} (h : Neat q.tokens) : Neat (Expr.exists q negated).tokens := by
  have leading : Leading (leadingNot negated ++ [.mark .exists, .mark .space]) := by
    cases negated <;> exact leading_of _ rfl
  simpa [Expr.tokens] using leading.append h.parens

theorem between_in : Between (spacedNot negated ++ spaced .in) := by
  cases negated <;> exact between_of _ rfl

theorem Neat.inList {values : List Expr}
    (h : values.isEmpty = true ∨ Neat e.tokens) (hv : ∀ v ∈ values, Neat v.tokens) :
    Neat (Expr.inList e values negated).tokens := by
  cases values with
  | nil => cases negated <;> exact neat_of _ rfl
  | cons v values =>
      have operand := h.resolve_left nofun
      simpa [Expr.tokens] using operand.between between_in (neat_exprs hv).parens

theorem Neat.inQuery {q : Query} (he : Neat e.tokens) (hq : Neat q.tokens) :
    Neat (Expr.inQuery e q negated).tokens := by
  simpa [Expr.tokens] using he.between between_in hq.parens

theorem Neat.betweenTest {low high : Expr} (he : Neat e.tokens) (hl : Neat low.tokens)
    (hh : Neat high.tokens) : Neat (Expr.between e low high negated).tokens := by
  have test : Between (spacedNot negated ++ spaced .between) := by
    cases negated <;> exact between_of _ rfl
  simpa [Expr.tokens] using
    he.between test (hl.between (between_of (spaced .and) rfl) hh)

theorem Neat.isNull (he : Neat e.tokens) : Neat (Expr.isNull e negated).tokens := by
  refine he.append ?_
  cases negated <;> exact following_of _ rfl

theorem Neat.isTruth {value : Bool} (he : Neat e.tokens) :
    Neat (Expr.isTruth e value negated).tokens := by
  have test : Following (spaced .is ++ leadingNot negated ++
      [.mark (if value then .true else .false)]) := by
    cases negated <;> cases value <;> exact following_of _ rfl
  simpa [Expr.tokens] using he.append test

theorem Neat.cast (he : Neat e.tokens) (ht : Sql.Placeholder.isName type = true) :
    Neat (Expr.cast e type).tokens := by
  have suffix : Following [.castTo type] :=
    following_of _
      (by simp [isChained, Token.isPlain, ht, endsPart, Token.isOperator, Token.isBreak])
  by_cases atomic : e.isAtomic = true
  · simpa [Expr.tokens, atomic] using he.append suffix
  · simpa [Expr.tokens, atomic] using he.parens.append suffix

/-! ### Parts of queries -/

variable {q : Query} {label : Option String}

theorem following_alias (label : Option String) : Following (aliasTokens label) := by
  cases label <;> exact following_of _ rfl

/-- A query on lines of its own between parentheses. -/
theorem Neat.block (h : Neat q.tokens) :
    Neat (Tree.parens (.mark .newline :: (q.tokens ++ [.mark .newline]))) := by
  have lines := h.append (following_of [.mark .newline] rfl)
  exact ((leading_of [.mark .newline] rfl).append lines).parens

theorem Neat.cte {c : Cte} (hc : c.columns = none) (hq : Neat c.query.tokens) : Neat c.tokens := by
  obtain ⟨name, columns, query, recursive⟩ := c
  obtain rfl : columns = none := hc
  simpa [Cte.tokens] using
    (neat_of [.ident name] rfl).between (between_of (spaced .as) rfl) hq.block

theorem Neat.item {i : SelectItem} (h : Neat i.expr.tokens) : Neat i.tokens := by
  obtain ⟨expr, label⟩ := i
  exact h.append (following_alias label)

theorem neat_named (t : TableRef) : Neat (Source.named t).tokens :=
  (neat_of [.qualified t.schema t.table] rfl).append (following_alias t.label)

theorem Neat.derived (h : Neat q.tokens) : Neat (Source.derived q label).tokens := by
  simpa [Source.tokens] using h.block.append (following_alias label)

theorem Neat.join {j : Join} (hs : Neat j.source.tokens) (hc : ∀ e ∈ j.condition, Neat e.tokens) :
    Following (.mark .newline :: j.tokens) := by
  obtain ⟨kind, source, condition⟩ := j
  have start : Between (.mark .newline :: (kind.tokens ++ spaced .join)) := by
    cases kind <;> exact between_of _ rfl
  cases condition with
  | none => simpa [Join.tokens] using start.append hs
  | some e =>
      have on_ := (between_of (spaced .on) rfl).append (hc e rfl)
      simpa [Join.tokens] using start.append (hs.append on_)

theorem following_joins {joins : List Join} (hs : ∀ j ∈ joins, Neat j.source.tokens)
    (hc : ∀ j ∈ joins, ∀ e ∈ j.condition, Neat e.tokens) : Following (joinTokens joins) := by
  induction joins with
  | nil => exact .nil
  | cons j joins ih =>
      obtain ⟨source, sources⟩ := List.forall_mem_cons.mp hs
      obtain ⟨condition, conditions⟩ := List.forall_mem_cons.mp hc
      exact (Neat.join source condition).append (ih sources conditions)

theorem Neat.order {o : OrderItem} (h : Neat o.expr.tokens) : Neat o.tokens := by
  obtain ⟨expr, direction, nulls⟩ := o
  have marks : ∃ ms, Following ms ∧
      (OrderItem.mk expr direction nulls).tokens = expr.tokens ++ ms := by
    rcases direction with _ | _ | _ <;> rcases nulls with _ | _ | _ <;>
      exact ⟨_, following_of _ rfl, List.append_assoc _ _ _⟩
  obtain ⟨ms, following, text⟩ := marks
  rw [text]
  exact h.append following

/-! ### Queries -/

theorem following_list {m : Mark} (hm : Between (lineStart m)) (h : ∀ g ∈ groups, Neat g) :
    Following (listTokens m groups) := by
  unfold listTokens
  split
  · exact .nil
  · exact hm.append (neat_commaSeparated h)

theorem following_items (h : ∀ g ∈ groups, Neat g) : Following (itemTokens groups) := by
  unfold itemTokens
  split
  · exact .nil
  · exact (between_of _ rfl).append (neat_separated (between_of _ rfl) h)

theorem following_where {o : Option Expr} (h : ∀ e ∈ o, Neat e.tokens) :
    Following (whereTokens o) := by
  cases o with
  | none => exact .nil
  | some e => exact (between_of (lineStart .where) rfl).append (h e rfl)

theorem following_having {o : Option Expr} (h : ∀ e ∈ o, Neat e.tokens) :
    Following (havingTokens o) := by
  cases o with
  | none => exact .nil
  | some e => exact (between_of (lineStart .having) rfl).append (h e rfl)

theorem following_rows {rows : Option RowRange} (h : rows.all RowRange.isReadable = true) :
    Following (rowTokens rows) := by
  have count : ∀ {n : UInt64}, 0 ≤ Output.rowCount n → Neat [.int (Output.rowCount n)] :=
    fun positive => ⟨decide_eq_true positive, by rintro _ ⟨⟩; rfl⟩
  rcases rows with _ | ⟨_ | limit, _ | offset⟩
  · exact .nil
  · exact following_of _ rfl
  all_goals
    simp only [RowRange.isReadable, Option.all_some, Option.all_none, Bool.and_eq_true,
      decide_eq_true_eq] at h
  · exact (between_of [.mark .newline, .mark .offset, .mark .space] rfl).append (count h.2)
  · exact (between_of [.mark .newline, .mark .limit, .mark .space] rfl).append (count h.1)
  · exact ((between_of [.mark .newline, .mark .limit, .mark .space] rfl).append
      (count h.1)).append ((between_of [.mark .space, .mark .offset, .mark .space] rfl).append
        (count h.2))

theorem leading_definitions {ctes : List Cte} (h : ∀ g ∈ cteGroups ctes, Neat g) :
    Leading (definitionTokens ctes) := by
  unfold definitionTokens
  split
  · exact leading_of _ rfl
  · have start : Leading (.mark .with :: ((if ctes.any Cte.isRecursive then
        [.mark .space, .mark .recursive] else []) ++ [.mark .space])) := by
      cases ctes.any Cte.isRecursive <;> exact leading_of _ rfl
    have separated := start.append
      (neat_separated (between_of [.mark .comma, .mark .newline] rfl) h)
    have lines := separated.leading (between_of [.mark .newline] rfl)
    simpa using lines

theorem Neat.operation {left right : Query} {op : Sql.SetOperator} {all : Bool}
    (hl : Neat left.tokens) (hr : Neat right.tokens) :
    Neat (SetOperation.mk left op all right).tokens := by
  have operand :
      Neat (if left.isBareSetOperation then left.tokens else Tree.parens left.tokens) := by
    split
    · exact hl
    · exact hl.parens
  have word : Between ([.mark .newline, .mark (setOperatorMark op)] ++
      (if all then [.mark .space, .mark .all] else []) ++ [.mark .newline]) := by
    cases op <;> cases all <;> exact between_of _ rfl
  simpa [SetOperation.tokens] using operand.between word hr.parens

/-! ### Trees that can be read back -/

theorem neat_call {arguments : List Expr} {distinct : Bool}
    (named : Sql.Placeholder.isName (Text.upper name) = true)
    (readable : argumentsReadable arguments = true)
    (own : ∀ e ∈ arguments, e.isReadable = true → Neat e.tokens) :
    Neat (Expr.call name arguments distinct).tokens := by
  refine .call named fun e he => ?_
  rcases argumentsReadable_cases readable e he with rfl | ⟨-, plain⟩
  · exact neat_of _ rfl
  · exact own e he plain

theorem neat_item {i : SelectItem} (own : i.expr.isReadable = true → Neat i.expr.tokens)
    (h : i = ⟨.raw "*", none⟩ ∨ i.expr.isWildcard = false ∧ i.expr.isReadable = true) :
    Neat i.tokens := by
  rcases h with rfl | ⟨-, readable⟩
  · exact neat_of _ rfl
  · exact .item (own readable)

theorem neat_source {s : Source} (own : ∀ r ∈ s.query?, r.isReadable = true → Neat r.tokens)
    (h : s.isReadable = true) : Neat s.tokens := by
  cases s with
  | named table => exact neat_named table
  | derived query label => exact (own query rfl h).derived
  | raw sql => cases h

theorem neat_fromItem {f : FromItem} (hs : ∀ s ∈ f.allSources, s.isReadable = true → Neat s.tokens)
    (hc : ∀ j ∈ f.joins, ∀ e ∈ j.condition, e.isReadable = true → Neat e.tokens)
    (h : f.source.isReadable = true ∧ joinsReadable f.joins = true) : Neat f.tokens := by
  obtain ⟨source, joins⟩ := f
  obtain ⟨leading, joined⟩ := List.forall_mem_cons.mp hs
  have parts := joinsReadable_parts h.2
  exact (leading h.1).append (following_joins
    (fun j hj => List.forall_mem_map.mp joined j hj (parts j hj).1)
    fun j hj e he => hc j hj e he ((parts j hj).2 e he))

theorem neat_select (own : ∀ e ∈ q.exprs, e.isReadable = true → Neat e.tokens)
    (operands : ∀ r ∈ q.operands, r.isReadable = true → Neat r.tokens)
    (plain : q.setOperation = none) (h : q.bodyReadable = true) : Neat q.selectTokens := by
  simp only [Query.bodyReadable, plain, Bool.and_eq_true, optionReadable_iff] at h
  obtain ⟨⟨⟨⟨⟨⟨-, items⟩, -⟩, sources⟩, condition⟩, keys⟩, having⟩ := h
  have distinct : Following (if q.distinct then [.mark .space, .mark .distinct] else []) := by
    cases q.distinct <;> exact following_of _ rfl
  have item : ∀ g ∈ itemGroups q.items, Neat g := by
    rw [itemGroups_eq]
    exact List.forall_mem_map.mpr fun i hi =>
      neat_item (own _ (item_mem_exprs hi)) (itemsReadable_cases items i hi)
  have source : ∀ g ∈ sourceGroups q.sources, Neat g := by
    rw [sourceGroups_eq]
    refine List.forall_mem_map.mpr fun f hf =>
      neat_fromItem ?_ ?_ (sourcesReadable_parts sources f hf)
    · exact fun s hs => neat_source fun r hr => operands r (source_mem_operands hf hs hr)
    · exact fun j hj e he => own e (joinCondition_mem_exprs hf hj he)
  have key : ∀ g ∈ exprGroups q.groupBy, Neat g := by
    rw [exprGroups_eq]
    exact List.forall_mem_map.mpr fun e he =>
      own e (key_mem_exprs he) (keysReadable_exprs keys e he)
  have where_ := following_where fun e he => own e (condition_mem_exprs he) (condition e he)
  have having_ := following_having fun e he => own e (having_mem_exprs he) (having e he)
  have groups := (following_list (m := .groupBy) (between_of _ rfl) key).append having_
  have clauses :=
    (following_list (m := .from) (between_of _ rfl) source).append (where_.append groups)
  exact (neat_of [.mark .select] rfl).append
    (distinct.append ((following_items item).append clauses))

theorem neat_body (own : ∀ e ∈ q.exprs, e.isReadable = true → Neat e.tokens)
    (operands : ∀ r ∈ q.operands, r.isReadable = true → Neat r.tokens)
    (h : q.bodyReadable = true) : Neat q.bodyTokens := by
  unfold Query.bodyTokens
  split
  · next o operation =>
    obtain ⟨left, op, all, right⟩ := o
    simp only [Query.bodyReadable, operation, SetOperation.isReadable, Bool.and_eq_true] at h
    have side : ∀ r ∈ [left, right], r.isReadable = true → Neat r.tokens :=
      fun r hr => operands r (side_mem_operands operation hr)
    exact .operation (side left (by simp) h.1.1) (side right (by simp) h.1.2)
  · next plain => exact neat_select own operands plain h

theorem neat_query (own : ∀ e ∈ q.exprs, e.isReadable = true → Neat e.tokens)
    (operands : ∀ r ∈ q.operands, r.isReadable = true → Neat r.tokens) (h : q.isReadable = true) :
    Neat q.tokens := by
  rw [Query.isReadable_eq] at h
  simp only [Bool.and_eq_true] at h
  obtain ⟨⟨⟨⟨definitions, -⟩, body⟩, orders⟩, rows⟩ := h
  have ctes : ∀ g ∈ cteGroups q.ctes, Neat g := by
    rw [cteGroups_eq]
    refine List.forall_mem_map.mpr fun c hc => ?_
    obtain ⟨columns, query⟩ := ctesReadable_parts definitions c hc
    exact .cte columns (operands _ (cte_mem_operands hc) query)
  have order : ∀ g ∈ orderGroups q.orderBy, Neat g := by
    rw [orderGroups_eq]
    exact List.forall_mem_map.mpr fun o ho =>
      .order (own _ (order_mem_exprs ho) (ordersReadable_iff.mp orders o ho))
  have clauses := (following_list (m := .orderBy) (between_of _ rfl) order).append
    (following_rows rows)
  rw [Query.tokens_parts]
  exact (leading_definitions ctes).append ((neat_body own operands body).append clauses)

theorem neatSteps : ReadableSteps (fun e => Neat e.tokens) fun q => Neat q.tokens where
  column _ := neat_column _
  literal h := neat_literal h
  param h := ⟨h, by rintro _ ⟨⟩; rfl⟩
  binary left right _ _ := left.binary right
  not operand _ _ := operand.not
  minus operand _ signed := operand.minus signed
  call named _ readable _ own := neat_call named readable own
  case operand _ branches otherwise := .case operand branches otherwise
  subquery query _ := query.parens
  existence query := query.exists
  inList operand values := .inList (operand.imp_right And.left) values
  inQuery operand query _ _ := operand.inQuery query
  between operand low high _ _ _ _ := operand.betweenTest low high
  isNull operand _ := operand.isNull
  isTruth operand _ := operand.isTruth
  cast operand type _ := operand.cast type
  interval := neat_of _ rfl
  paren inner := inner.parens
  raw h := neat_raw h
  query h exprs operands := neat_query exprs operands h

/-! ### Whole texts -/

/-- The text of a query that can be read back is read as the one statement that is the syntax of
the query. -/
theorem statements?_sql (h : q.isReadable = true) (hd : q.depth ≤ 48) :
    statements? q.sql = some [.query q.toSyntax] := by
  rw [Query.sql, Output.statements?_sqlText (neatSteps.queries h).legible]
  exact congrArg Except.toOption (readStatements_tokens h hd)

end ReportSql.Tree
