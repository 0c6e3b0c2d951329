import ReportSql.Proofs.TreeInduction
import ReportSql.Proofs.WrittenSyntax

/-!
The trees whose text is read back as their syntax, and induction over them.
-/
namespace ReportSql.Tree

open Output (nameToken spelled)

/-! ### Trees that can be read back -/

/-- The keyword that some written tokens start with. -/
def opener (ts : List Output.Token) : Option String :=
  (spelled ts).head?.bind Sql.Token.keyword?

def Literal.isReadable : Literal → Bool
  | .int n => 0 ≤ n
  | .float _ => false
  | _ => true

/-- Whether a name can stand first in an expression. -/
def isColumnStart (name : String) : Bool :=
  !(nameToken name).keyword?.any Sql.Grammar.columnConstructs.contains

/-- Whether a name, which is written in upper case, can be the name of a function. -/
def isCallStart (name : String) : Bool :=
  !(Sql.Token.word (Text.upper name) false).keyword?.any Sql.Grammar.callConstructs.contains

/-- Whether a query does not start with a parenthesis. -/
def Query.startsPlainly (q : Query) : Bool := q.setOperation.isNone || !q.ctes.isEmpty

/-- The set operator that a query without parentheses ends with. -/
def Query.lastOperator (q : Query) : Option Sql.SetOperator := q.setOperation.map fun o => o.op

def RowRange.isReadable (r : RowRange) : Bool :=
  (r.limit.all fun n => 0 ≤ Output.rowCount n) && r.offset.all fun n => 0 ≤ Output.rowCount n

mutual

/-- Whether the text of an expression is read back as its syntax. -/
def Expr.isReadable : Expr → Bool
  | .column table name => isColumnStart (table.getD name)
  | .literal value => value.isReadable
  | .param name => Sql.Placeholder.isName name
  | .binary left op right =>
    left.isReadable && right.isReadable && op.precedence ≤ left.edge
      && op.precedence < right.level
  | .unary op operand =>
    operand.isReadable && op.precedence < operand.level
      && match op with
        | .not => opener operand.tokens != some "EXISTS"
        | .minus => operand.tokens.head?.any Output.Token.canBeSigned
  | .call name arguments distinct =>
    Sql.Placeholder.isName (Text.upper name) && isCallStart name && argumentsReadable arguments
      && !(distinct && arguments.isEmpty)
  | .case operand branches otherwise =>
    optionReadable operand && branchesReadable branches && !branches.isEmpty
      && optionReadable otherwise
  | .subquery query => query.isReadable && query.startsPlainly
  | .exists query _ => query.isReadable
  | .inList operand values _ =>
    values.isEmpty || (operand.isReadable && exprsReadable values
      && Sql.Grammar.testPrecedence ≤ operand.edge)
  | .inQuery operand query _ =>
    operand.isReadable && query.isReadable && query.startsPlainly
      && Sql.Grammar.testPrecedence ≤ operand.edge
  | .between operand low high _ =>
    operand.isReadable && low.isReadable && high.isReadable
      && Sql.Grammar.testPrecedence ≤ operand.edge && Sql.Grammar.testPrecedence < low.level
      && 20 ≤ low.edge && Sql.Grammar.testPrecedence < high.level
  | .isNull operand _ | .isTruth operand _ _ => operand.isReadable && 40 ≤ operand.edge
  | .cast operand type =>
    operand.isReadable && Sql.Placeholder.isName type && (castType? type).isSome
  | .interval _ => true
  | .star _ => false
  | .paren inner => inner.isReadable
  | .raw sql => Sql.isNumeral sql

def optionReadable : Option Expr → Bool
  | none => true
  | some e => e.isReadable

def exprsReadable : List Expr → Bool
  | [] => true
  | e :: rest => e.isReadable && exprsReadable rest

/-- A star alone may be an argument. -/
def argumentsReadable : List Expr → Bool
  | [] => true
  | e :: rest => (e.isStar || e.isReadable) && argumentsReadable rest

def branchesReadable : List Branch → Bool
  | [] => true
  | ⟨condition, result⟩ :: rest =>
    condition.isReadable && result.isReadable && branchesReadable rest

/-- Whether the text of a query is read back as its syntax. -/
def Query.isReadable : Query → Bool
  | ⟨ctes, items, _, sources, condition, groupBy, having, orderBy, rows, setOperation⟩ =>
    ctesReadable ctes && opener (cteGroups ctes).flatten != some "RECURSIVE"
      && (match setOperation with
        | some operation => operation.isReadable
        | none =>
          !items.isEmpty && itemsReadable items && opener (itemGroups items).flatten != some "TOP"
            && sourcesReadable sources && optionReadable condition && keysReadable groupBy
            && optionReadable having)
      && ordersReadable orderBy && rows.all RowRange.isReadable

def ctesReadable : List Cte → Bool
  | [] => true
  | ⟨_, columns, query, _⟩ :: rest => columns.isNone && query.isReadable && ctesReadable rest

/-- A star alone may be an item. -/
def itemsReadable : List SelectItem → Bool
  | [] => true
  | ⟨expr, label⟩ :: rest =>
    (expr.isWildcard && label.isNone || expr.isReadable) && itemsReadable rest

def keysReadable : List Expr → Bool
  | [] => true
  | e :: rest =>
    e.isReadable && !(opener e.tokens).any ["GROUPING", "CUBE", "ROLLUP"].contains
      && keysReadable rest

def sourcesReadable : List FromItem → Bool
  | [] => true
  | ⟨source, joins⟩ :: rest => source.isReadable && joinsReadable joins && sourcesReadable rest

def Source.isReadable : Source → Bool
  | .named t => opener [.ident (t.schema.getD t.table)] != some "UNNEST"
  | .derived query _ => query.isReadable
  | .raw _ => false

/-- A cross join takes no condition. -/
def joinsReadable : List Join → Bool
  | [] => true
  | ⟨kind, source, condition⟩ :: rest =>
    source.isReadable && optionReadable condition && (kind != .cross || condition.isNone)
      && joinsReadable rest

def ordersReadable : List OrderItem → Bool
  | [] => true
  | ⟨expr, _, _⟩ :: rest => expr.isReadable && ordersReadable rest

/-- A chain of set operations to the left may not bind more tightly at its end. -/
def SetOperation.isReadable : SetOperation → Bool
  | ⟨left, op, _, right⟩ =>
    left.isReadable && right.isReadable
      && (!left.isBareSetOperation || left.lastOperator.all fun inner =>
        Sql.Grammar.setPrecedence op ≤ Sql.Grammar.setPrecedence inner)

end

/-! ### Parts of trees that can be read back -/

theorem optionReadable_iff {o : Option Expr} :
    optionReadable o = true ↔ ∀ e ∈ o, e.isReadable = true := by
  cases o <;> simp [optionReadable]

theorem exprsReadable_iff {es : List Expr} :
    exprsReadable es = true ↔ ∀ e ∈ es, e.isReadable = true := by
  induction es with
  | nil => simp [exprsReadable]
  | cons e es ih => simp [exprsReadable, ih]

/-- A star is no expression that can be read back. -/
theorem isStar_of_readable {e : Expr} (h : e.isReadable = true) : e.isStar = false := by
  cases e with
  | star table => cases h
  | _ => rfl

theorem isWildcard_of_readable {e : Expr} (h : e.isReadable = true) : e.isWildcard = false := by
  cases e with
  | raw sql =>
      rw [Expr.isWildcard, beq_eq_false_iff_ne]
      rintro rfl
      exact absurd h (by decide)
  | _ => rfl

theorem eq_star {e : Expr} (h : e.isStar = true) : e = .star none := by
  cases e with
  | star table =>
      cases table with
      | none => rfl
      | some _ => cases h
  | _ => cases h

theorem eq_wildcard {e : Expr} (h : e.isWildcard = true) : e = .raw "*" := by
  cases e with
  | raw sql => rw [show sql = "*" by simpa [Expr.isWildcard] using h]
  | _ => cases h

theorem argumentsReadable_cases {es : List Expr} (h : argumentsReadable es = true) :
    ∀ e ∈ es, e = .star none ∨ e.isStar = false ∧ e.isReadable = true := by
  induction es with
  | nil => exact fun _ he => absurd he List.not_mem_nil
  | cons e es ih =>
      simp only [argumentsReadable, Bool.and_eq_true, Bool.or_eq_true] at h
      refine List.forall_mem_cons.mpr ⟨?_, ih h.2⟩
      exact h.1.imp eq_star fun readable => ⟨isStar_of_readable readable, readable⟩

theorem branchesReadable_iff {branches : List Branch} : branchesReadable branches = true ↔
    ∀ b ∈ branches, b.condition.isReadable = true ∧ b.result.isReadable = true := by
  induction branches with
  | nil => simp [branchesReadable]
  | cons b branches ih =>
      obtain ⟨condition, result⟩ := b
      simp [branchesReadable, ih]

theorem ctesReadable_parts {ctes : List Cte} (h : ctesReadable ctes = true) :
    ∀ c ∈ ctes, c.columns = none ∧ c.query.isReadable = true := by
  induction ctes with
  | nil => exact fun _ hc => absurd hc List.not_mem_nil
  | cons c ctes ih =>
      obtain ⟨name, columns, query, recursive⟩ := c
      simp only [ctesReadable, Bool.and_eq_true, Option.isNone_iff_eq_none] at h
      exact List.forall_mem_cons.mpr ⟨h.1, ih h.2⟩

theorem itemsReadable_cases {items : List SelectItem} (h : itemsReadable items = true) :
    ∀ i ∈ items, i = ⟨.raw "*", none⟩ ∨
      i.expr.isWildcard = false ∧ i.expr.isReadable = true := by
  induction items with
  | nil => exact fun _ hi => absurd hi List.not_mem_nil
  | cons i items ih =>
      obtain ⟨expr, label⟩ := i
      simp only [itemsReadable, Bool.and_eq_true, Bool.or_eq_true, Option.isNone_iff_eq_none] at h
      refine List.forall_mem_cons.mpr ⟨?_, ih h.2⟩
      rcases h.1 with ⟨star, rfl⟩ | readable
      · exact .inl (congrArg (SelectItem.mk · none) (eq_wildcard star))
      · exact .inr ⟨isWildcard_of_readable readable, readable⟩

theorem keysReadable_exprs {es : List Expr} (h : keysReadable es = true) :
    ∀ e ∈ es, e.isReadable = true := by
  induction es with
  | nil => exact fun _ he => absurd he List.not_mem_nil
  | cons e es ih =>
      simp only [keysReadable, Bool.and_eq_true] at h
      exact List.forall_mem_cons.mpr ⟨h.1.1, ih h.2⟩

theorem joinsReadable_parts {joins : List Join} (h : joinsReadable joins = true) :
    ∀ j ∈ joins, j.source.isReadable = true ∧ ∀ e ∈ j.condition, e.isReadable = true := by
  induction joins with
  | nil => exact fun _ hj => absurd hj List.not_mem_nil
  | cons j joins ih =>
      obtain ⟨kind, source, condition⟩ := j
      simp only [joinsReadable, Bool.and_eq_true, optionReadable_iff] at h
      exact List.forall_mem_cons.mpr ⟨⟨h.1.1.1, h.1.1.2⟩, ih h.2⟩

theorem sourcesReadable_parts {sources : List FromItem} (h : sourcesReadable sources = true) :
    ∀ f ∈ sources, f.source.isReadable = true ∧ joinsReadable f.joins = true := by
  induction sources with
  | nil => exact fun _ hf => absurd hf List.not_mem_nil
  | cons f sources ih =>
      obtain ⟨source, joins⟩ := f
      simp only [sourcesReadable, Bool.and_eq_true] at h
      exact List.forall_mem_cons.mpr ⟨⟨h.1.1, h.1.2⟩, ih h.2⟩

theorem ordersReadable_iff {orders : List OrderItem} :
    ordersReadable orders = true ↔ ∀ o ∈ orders, o.expr.isReadable = true := by
  induction orders with
  | nil => simp [ordersReadable]
  | cons o orders ih =>
      obtain ⟨expr, direction, nulls⟩ := o
      simp [ordersReadable, ih]

/-- Whether the body of a query can be read back. -/
def Query.bodyReadable (q : Query) : Bool :=
  match q.setOperation with
  | some operation => operation.isReadable
  | none =>
    !q.items.isEmpty && itemsReadable q.items && opener (itemGroups q.items).flatten != some "TOP"
      && sourcesReadable q.sources && optionReadable q.condition && keysReadable q.groupBy
      && optionReadable q.having

theorem Query.isReadable_eq (q : Query) : q.isReadable = (ctesReadable q.ctes
    && opener (cteGroups q.ctes).flatten != some "RECURSIVE" && q.bodyReadable
    && ordersReadable q.orderBy && q.rows.all RowRange.isReadable) := by
  obtain ⟨_, _, _, _, _, _, _, _, _, operation⟩ := q
  cases operation <;> rfl

/-! ### Induction -/

/-- What an induction over the trees that can be read back has to show, construct by construct: a
property of expressions and one of queries. -/
structure ReadableSteps (P : Expr → Prop) (Q : Query → Prop) : Prop where
  column {table : Option String} {name : String} : isColumnStart (table.getD name) = true →
    P (.column table name)
  literal {value : Literal} : value.isReadable = true → P (.literal value)
  param {name : String} : Sql.Placeholder.isName name = true → P (.param name)
  binary {left right : Expr} {op : BinaryOp} : P left → P right → op.precedence ≤ left.edge →
    op.precedence < right.level → P (.binary left op right)
  not {operand : Expr} : P operand → UnaryOp.not.precedence < operand.level →
    opener operand.tokens ≠ some "EXISTS" → P (.unary .not operand)
  minus {operand : Expr} : P operand → UnaryOp.minus.precedence < operand.level →
    operand.tokens.head?.any Output.Token.canBeSigned = true → P (.unary .minus operand)
  call {name : String} {arguments : List Expr} {distinct : Bool} :
    Sql.Placeholder.isName (Text.upper name) = true → isCallStart name = true →
    argumentsReadable arguments = true → (distinct = true → arguments ≠ []) →
    (∀ e ∈ arguments, e.isReadable = true → P e) → P (.call name arguments distinct)
  case {operand otherwise : Option Expr} {branches : List Branch} : (∀ e ∈ operand, P e) →
    branches ≠ [] → (∀ b ∈ branches, P b.condition ∧ P b.result) → (∀ e ∈ otherwise, P e) →
    P (.case operand branches otherwise)
  subquery {query : Query} : Q query → query.startsPlainly = true → P (.subquery query)
  existence {query : Query} {negated : Bool} : Q query → P (.exists query negated)
  inList {operand : Expr} {values : List Expr} {negated : Bool} :
    values.isEmpty = true ∨ P operand ∧ Sql.Grammar.testPrecedence ≤ operand.edge →
    (∀ e ∈ values, P e) → P (.inList operand values negated)
  inQuery {operand : Expr} {query : Query} {negated : Bool} : P operand → Q query →
    query.startsPlainly = true → Sql.Grammar.testPrecedence ≤ operand.edge →
    P (.inQuery operand query negated)
  between {operand low high : Expr} {negated : Bool} : P operand → P low → P high →
    Sql.Grammar.testPrecedence ≤ operand.edge → Sql.Grammar.testPrecedence < low.level →
    20 ≤ low.edge → Sql.Grammar.testPrecedence < high.level → P (.between operand low high negated)
  isNull {operand : Expr} {negated : Bool} : P operand → 40 ≤ operand.edge →
    P (.isNull operand negated)
  isTruth {operand : Expr} {value negated : Bool} : P operand → 40 ≤ operand.edge →
    P (.isTruth operand value negated)
  cast {operand : Expr} {type : String} : P operand → Sql.Placeholder.isName type = true →
    (castType? type).isSome = true → P (.cast operand type)
  interval {text : String} : P (.interval text)
  paren {inner : Expr} : P inner → P (.paren inner)
  raw {sql : String} : Sql.isNumeral sql = true → P (.raw sql)
  query {q : Query} : q.isReadable = true → (∀ e ∈ q.exprs, e.isReadable = true → P e) →
    (∀ r ∈ q.operands, r.isReadable = true → Q r) → Q q

variable {P : Expr → Prop} {Q : Query → Prop}

theorem ReadableSteps.exprStep (steps : ReadableSteps P Q) (e : Expr)
    (own : ∀ x ∈ e.parts, x.isReadable = true → P x)
    (queries : ∀ q ∈ e.query?, q.isReadable = true → Q q) (h : e.isReadable = true) : P e := by
  cases e with
  | column table name => exact steps.column h
  | literal value => exact steps.literal h
  | param name => exact steps.param h
  | binary left op right =>
      simp only [Expr.parts, List.mem_cons, List.not_mem_nil, or_false, forall_eq_or_imp,
        forall_eq] at own
      simp only [Expr.isReadable, Bool.and_eq_true, decide_eq_true_eq] at h
      exact steps.binary (own.1 h.1.1.1) (own.2 h.1.1.2) h.1.2 h.2
  | unary op operand =>
      have inner := own operand List.mem_cons_self
      cases op with
      | not =>
          simp only [Expr.isReadable, Bool.and_eq_true, decide_eq_true_eq, bne_iff_ne, ne_eq] at h
          exact steps.not (inner h.1.1) h.1.2 h.2
      | minus =>
          simp only [Expr.isReadable, Bool.and_eq_true, decide_eq_true_eq] at h
          exact steps.minus (inner h.1.1) h.1.2 h.2
  | call name arguments distinct =>
      simp only [Expr.isReadable, Bool.and_eq_true, Bool.not_eq_true', Bool.and_eq_false_imp,
        List.isEmpty_eq_false_iff] at h
      obtain ⟨⟨⟨named, start⟩, readable⟩, nonempty⟩ := h
      exact steps.call named start readable nonempty own
  | case operand branches otherwise =>
      simp only [Expr.parts, List.mem_append, Option.mem_toList, List.mem_flatMap] at own
      simp only [Expr.isReadable, Bool.and_eq_true, Bool.not_eq_true', optionReadable_iff,
        branchesReadable_iff, List.isEmpty_eq_false_iff] at h
      obtain ⟨⟨⟨operands, each⟩, nonempty⟩, others⟩ := h
      have side : ∀ b ∈ branches, ∀ x ∈ b.sides, x.isReadable = true → P x :=
        fun b hb x hx => own x (.inl (.inr ⟨b, hb, hx⟩))
      exact steps.case (fun e he => own e (.inl (.inl he)) (operands e he)) nonempty
        (fun b hb => ⟨side b hb _ (by simp [Branch.sides]) (each b hb).1,
          side b hb _ (by simp [Branch.sides]) (each b hb).2⟩)
        fun e he => own e (.inr he) (others e he)
  | subquery query =>
      simp only [Expr.isReadable, Bool.and_eq_true] at h
      exact steps.subquery (queries query rfl h.1) h.2
  | «exists» query negated => exact steps.existence (queries query rfl h)
  | inList operand values negated =>
      obtain ⟨value, values_⟩ := List.forall_mem_cons.mp own
      simp only [Expr.isReadable, Bool.and_eq_true, Bool.or_eq_true, decide_eq_true_eq,
        exprsReadable_iff] at h
      refine steps.inList (h.imp_right fun inner => ⟨value inner.1.1, inner.2⟩) fun e he => ?_
      rcases h with empty | ⟨⟨-, each⟩, -⟩
      · rw [List.isEmpty_iff.mp empty] at he
        exact absurd he List.not_mem_nil
      · exact values_ e he (each e he)
  | inQuery operand query negated =>
      simp only [Expr.isReadable, Bool.and_eq_true, decide_eq_true_eq] at h
      exact steps.inQuery (own operand List.mem_cons_self h.1.1.1) (queries query rfl h.1.1.2)
        h.1.2 h.2
  | between operand low high negated =>
      simp only [Expr.parts, List.mem_cons, List.not_mem_nil, or_false, forall_eq_or_imp,
        forall_eq] at own
      simp only [Expr.isReadable, Bool.and_eq_true, decide_eq_true_eq] at h
      obtain ⟨⟨⟨⟨⟨⟨value, first⟩, last⟩, left⟩, middle⟩, ends⟩, right⟩ := h
      exact steps.between (own.1 value) (own.2.1 first) (own.2.2 last) left middle ends right
  | isNull operand negated =>
      simp only [Expr.isReadable, Bool.and_eq_true, decide_eq_true_eq] at h
      exact steps.isNull (own operand List.mem_cons_self h.1) h.2
  | isTruth operand value negated =>
      simp only [Expr.isReadable, Bool.and_eq_true, decide_eq_true_eq] at h
      exact steps.isTruth (own operand List.mem_cons_self h.1) h.2
  | cast operand type =>
      simp only [Expr.isReadable, Bool.and_eq_true] at h
      exact steps.cast (own operand List.mem_cons_self h.1.1) h.1.2 h.2
  | interval text => exact steps.interval
  | star table => cases h
  | paren inner => exact steps.paren (own inner List.mem_cons_self h)
  | raw sql => exact steps.raw h

theorem ReadableSteps.treeSteps (steps : ReadableSteps P Q) :
    TreeSteps (fun e => e.isReadable = true → P e) fun q => q.isReadable = true → Q q where
  expr := steps.exprStep
  query _ exprs operands h := steps.query h exprs operands

theorem ReadableSteps.exprs (steps : ReadableSteps P Q) {e : Expr} (h : e.isReadable = true) :
    P e :=
  steps.treeSteps.exprs e h

theorem ReadableSteps.queries (steps : ReadableSteps P Q) {q : Query} (h : q.isReadable = true) :
    Q q :=
  steps.treeSteps.queries q h

end ReportSql.Tree
