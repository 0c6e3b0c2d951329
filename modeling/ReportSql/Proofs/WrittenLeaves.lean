import ReportSql.Proofs.Leaves
import ReportSql.Proofs.ReadTrees

/-!
The leaves of what is written: the texts, dates, placeholders and raw SQL among its tokens. Those of
a tree are those of its parts.
-/
namespace ReportSql.Output

variable {t : Token} {ts us separator : List Token} {groups : List (List Token)}

/-! ### Leaves -/

/-- Whether a token is a text, a date, a placeholder or raw SQL. -/
def Token.isLeaf : Token → Bool
  | .text _ | .date _ | .param _ | .raw _ => true
  | _ => false

def leaves (ts : List Token) : List Token := ts.filter Token.isLeaf

@[simp] theorem leaves_nil : leaves [] = [] := rfl

@[simp] theorem leaves_append : leaves (ts ++ us) = leaves ts ++ leaves us := List.filter_append ..

@[simp] theorem leaves_mark (m : Mark) : leaves (.mark m :: ts) = leaves ts := rfl

@[simp] theorem leaves_concat : leaves (.concat :: ts) = leaves ts := rfl

@[simp] theorem leaves_indent (depth : Nat) : leaves (.indent depth :: ts) = leaves ts := rfl

@[simp] theorem leaves_ident (name : String) : leaves (.ident name :: ts) = leaves ts := rfl

@[simp] theorem leaves_qualified (schema : Option String) (name : String) :
    leaves (.qualified schema name :: ts) = leaves ts := rfl

@[simp] theorem leaves_int (value : Int) : leaves (.int value :: ts) = leaves ts := rfl

@[simp] theorem leaves_castTo (type : String) : leaves (.castTo type :: ts) = leaves ts := rfl

@[simp] theorem leaves_function (name : String) : leaves (.function name :: ts) = leaves ts := rfl

theorem mem_leaves_separated (h : leaves separator = []) :
    t ∈ leaves (separated separator groups) ↔ ∃ g ∈ groups, t ∈ leaves g := by
  induction groups with
  | nil => simp [separated]
  | cons g groups ih =>
      cases groups with
      | nil => simp [separated]
      | cons us groups =>
          have rest : separated separator (g :: us :: groups) =
            g ++ separator ++ separated separator (us :: groups) := rfl
          rw [rest, leaves_append, leaves_append, h, List.append_nil, List.mem_append, ih]
          simp

theorem mem_leaves_param {n : String} : .param n ∈ leaves ts ↔ .param n ∈ ts := by
  simp [leaves, Token.isLeaf]

end ReportSql.Output

namespace ReportSql.Tree

open Output (Token leaves leaves_append leaves_mark leaves_nil mem_leaves_separated)

variable {t : Token} {e : Expr} {q : Query}

/-- The token that an expression without parts is written as, unless it is a name. -/
def Expr.ownTokens : Expr → List Token
  | .literal value => [value.token]
  | .param name => [.param name]
  | .interval text => [.text text]
  | .raw sql => [.raw sql]
  | _ => []

/-- Whether an expression is a test of an empty list, whose operand is not written. -/
def Expr.testsNothing : Expr → Bool
  | .inList _ values _ => values.isEmpty
  | _ => false

theorem leaves_parens (ts : List Token) : leaves (parens ts) = leaves ts := by
  simp [parens]

theorem leaves_operator (op : BinaryOp) : leaves op.tokens = [] := by
  cases op <;> rfl

theorem leaves_qualifier (table : Option String) : leaves (qualifier table) = [] := by
  cases table <;> rfl

theorem leaves_spacedNot (negated : Bool) : leaves (spacedNot negated) = [] := by
  cases negated <;> rfl

theorem leaves_leadingNot (negated : Bool) : leaves (leadingNot negated) = [] := by
  cases negated <;> rfl

theorem leaves_alias (label : Option String) : leaves (aliasTokens label) = [] := by
  cases label <;> rfl

theorem mem_leaves_commas (groups : List (List Token)) :
    t ∈ leaves (Output.commaSeparated groups) ↔ ∃ g ∈ groups, t ∈ leaves g :=
  mem_leaves_separated rfl

theorem mem_leaves_branches (branches : List Branch) :
    t ∈ leaves (branchTokens branches) ↔
      ∃ x ∈ branches.flatMap Branch.sides, t ∈ leaves x.tokens := by
  induction branches with
  | nil => simp [branchTokens]
  | cons b branches ih =>
      obtain ⟨condition, result⟩ := b
      simp only [List.flatMap_cons, List.mem_append, or_and_right, exists_or, ← ih]
      simp [branchTokens, spaced, Branch.sides, or_assoc]

/-- The leaves of an expression are its own, those of its parts and those of its query. -/
theorem mem_leaves_expr (h : e.testsNothing = false) : t ∈ leaves e.tokens ↔
    t ∈ leaves e.ownTokens ∨ (∃ x ∈ e.parts, t ∈ leaves x.tokens) ∨
      ∃ q ∈ e.query?, t ∈ leaves q.tokens := by
  cases e with
  | binary l op r => simp [Expr.tokens, Expr.ownTokens, Expr.parts, Expr.query?, leaves_operator]
  | unary op x => cases op <;> simp [Expr.tokens, Expr.ownTokens, Expr.parts, Expr.query?]
  | call name es distinct =>
      cases distinct <;>
        simp [Expr.tokens, Expr.ownTokens, Expr.parts, Expr.query?, leaves_parens, exprGroups_eq,
          mem_leaves_commas]
  | case operand branches otherwise =>
      cases operand <;> cases otherwise <;>
        simp only [Expr.tokens, Expr.ownTokens, Expr.parts, Expr.query?, spaced, leaves_append,
          leaves_mark, leaves_nil, List.append_nil, List.nil_append, List.cons_append,
          List.mem_append, mem_leaves_branches, or_and_right, exists_or] <;>
        simp
  | inList x values negated =>
      cases values with
      | nil => cases h
      | cons v values =>
          simp [Expr.tokens, Expr.ownTokens, Expr.parts, Expr.query?, leaves_parens, exprGroups_eq,
            mem_leaves_commas, leaves_spacedNot, spaced]
  | cast x type =>
      by_cases atomic : x.isAtomic = true <;>
        simp [Expr.tokens, Expr.ownTokens, Expr.parts, Expr.query?, leaves_parens, atomic]
  | _ =>
      simp [Expr.tokens, Expr.ownTokens, Expr.parts, Expr.query?, leaves_parens, leaves_qualifier,
        leaves_spacedNot, leaves_leadingNot, spaced]

/-- A query without the parts that are not written: a set operation has no other body. -/
def Query.written (q : Query) : Query :=
  match q.setOperation with
  | some operation => { Query.empty with
      ctes := q.ctes
      orderBy := q.orderBy
      rows := q.rows
      setOperation := some operation }
  | none => q

theorem mem_leaves_where (condition : Option Expr) :
    t ∈ leaves (whereTokens condition) ↔ ∃ e ∈ condition, t ∈ leaves e.tokens := by
  cases condition <;> simp [whereTokens, lineStart]

theorem mem_leaves_having (condition : Option Expr) :
    t ∈ leaves (havingTokens condition) ↔ ∃ e ∈ condition, t ∈ leaves e.tokens := by
  cases condition <;> simp [havingTokens, lineStart]

theorem mem_leaves_list (m : Output.Mark) (groups : List (List Token)) :
    t ∈ leaves (listTokens m groups) ↔ ∃ g ∈ groups, t ∈ leaves g := by
  cases groups <;> simp [listTokens, lineStart, mem_leaves_commas]

theorem mem_leaves_items (groups : List (List Token)) :
    t ∈ leaves (itemTokens groups) ↔ ∃ g ∈ groups, t ∈ leaves g := by
  have breaks : leaves [.mark .comma, .mark .newline, .indent 1] = [] := rfl
  cases groups <;> simp [itemTokens, mem_leaves_separated breaks]

theorem leaves_item (i : SelectItem) : leaves i.tokens = leaves i.expr.tokens := by
  obtain ⟨expr, label⟩ := i
  simp [SelectItem.tokens, leaves_alias]

theorem leaves_order (o : OrderItem) : leaves o.tokens = leaves o.expr.tokens := by
  obtain ⟨expr, direction, nulls⟩ := o
  cases direction <;> cases nulls <;> simp [OrderItem.tokens]

theorem leaves_cte (c : Cte) : leaves c.tokens = leaves c.query.tokens := by
  obtain ⟨name, columns, query, isRecursive⟩ := c
  have names : ∀ names : List String,
      leaves (Output.commaSeparated (names.map fun c => [.ident c])) = [] := fun names =>
    List.eq_nil_iff_forall_not_mem.mpr fun t ht => by
      obtain ⟨g, hg, own⟩ := (mem_leaves_commas _).mp ht
      obtain ⟨c, -, rfl⟩ := List.mem_map.mp hg
      cases own
  cases columns <;> simp [Cte.tokens, spaced, leaves_parens, names]

theorem leaves_definitions (ctes : List Cte) :
    t ∈ leaves (definitionTokens ctes) ↔ ∃ c ∈ ctes, t ∈ leaves c.query.tokens := by
  have breaks : leaves [.mark .comma, .mark .newline] = [] := rfl
  unfold definitionTokens
  split
  · next empty => simp [List.isEmpty_iff.mp empty]
  · split <;> simp [mem_leaves_separated breaks, cteGroups_eq, leaves_cte]

theorem mem_leaves_source (s : Source) : t ∈ leaves s.tokens ↔
    (∃ q ∈ s.query?, t ∈ leaves q.tokens) ∨ ∃ sql ∈ s.raw?, t = .raw sql := by
  cases s with
  | named table =>
      simp [Source.tokens, TableRef.tokens, leaves_alias, Source.query?, Source.raw?]
  | derived query label =>
      simp [Source.tokens, leaves_parens, leaves_alias, Source.query?, Source.raw?]
  | raw sql =>
      have own : leaves [.raw sql] = [.raw sql] := rfl
      simp [Source.tokens, Source.query?, Source.raw?, own]

theorem leaves_join (j : Join) : t ∈ leaves j.tokens ↔
    t ∈ leaves j.source.tokens ∨ ∃ e ∈ j.condition, t ∈ leaves e.tokens := by
  obtain ⟨kind, source, condition⟩ := j
  cases kind <;> cases condition <;> simp [Join.tokens, JoinKind.tokens, spaced]

theorem leaves_joins (joins : List Join) : t ∈ leaves (joinTokens joins) ↔
    ∃ j ∈ joins, t ∈ leaves j.tokens := by
  induction joins with
  | nil => simp [joinTokens]
  | cons j joins ih => simp [joinTokens, ih]

theorem leaves_fromItem (f : FromItem) : t ∈ leaves f.tokens ↔
    (∃ s ∈ f.allSources, t ∈ leaves s.tokens) ∨
      ∃ e ∈ f.joins.filterMap Join.condition, t ∈ leaves e.tokens := by
  obtain ⟨source, joins⟩ := f
  simp only [FromItem.tokens, leaves_append, List.mem_append, leaves_joins, leaves_join,
    FromItem.allSources, List.exists_mem_cons_iff, List.mem_map, List.mem_filterMap,
    Option.mem_def]
  grind

theorem leaves_rows (rows : Option RowRange) : leaves (rowTokens rows) = [] := by
  rcases rows with _ | ⟨_ | _, _ | _⟩ <;> rfl

theorem mem_leaves_operation (o : SetOperation) :
    t ∈ leaves o.tokens ↔ ∃ r ∈ o.sides, t ∈ leaves r.tokens := by
  obtain ⟨left, op, all, right⟩ := o
  cases all <;> by_cases bare : left.isBareSetOperation = true <;>
    simp [SetOperation.tokens, SetOperation.sides, leaves_parens, bare]

theorem mem_leaves_sources (sources : List FromItem) :
    t ∈ leaves (listTokens .from (sourceGroups sources)) ↔
      (∃ e ∈ sources.flatMap (fun f => f.joins.filterMap Join.condition), t ∈ leaves e.tokens) ∨
        (∃ q ∈ (sources.flatMap FromItem.allSources).filterMap Source.query?, t ∈ leaves q.tokens) ∨
          ∃ sql ∈ (sources.flatMap FromItem.allSources).filterMap Source.raw?, t = .raw sql := by
  simp only [mem_leaves_list, sourceGroups_eq, List.mem_map, exists_exists_and_eq_and,
    leaves_fromItem, mem_leaves_source, List.mem_flatMap, List.mem_filterMap, Option.mem_def]
  grind

/-- The leaves of a query are those of its expressions, of the queries in its clauses and of its raw
sources, as far as they are written. -/
theorem mem_leaves_query : t ∈ leaves q.tokens ↔
    (∃ e ∈ q.written.exprs, t ∈ leaves e.tokens) ∨
      (∃ r ∈ q.written.operands, t ∈ leaves r.tokens) ∨
        ∃ sql ∈ q.written.allSources.filterMap Source.raw?, t = .raw sql := by
  have distinct : leaves (if q.distinct then [.mark .space, .mark .distinct] else []) = [] := by
    cases q.distinct <;> rfl
  rw [Query.tokens_parts]
  simp only [leaves_append, List.mem_append, leaves_definitions, leaves_rows, mem_leaves_list,
    orderGroups_eq, List.mem_map, exists_exists_and_eq_and, leaves_order, List.not_mem_nil,
    or_false]
  cases operation : q.setOperation with
  | some o =>
      simp only [Query.bodyTokens, operation, mem_leaves_operation, Query.written, Query.exprs,
        Query.operands, Query.allSources, Query.empty, List.mem_append, List.mem_map]
      simp
      grind
  | none =>
      simp only [Query.bodyTokens, operation, Query.selectTokens, Query.written, leaves_mark,
        leaves_append, distinct, List.nil_append, List.mem_append, mem_leaves_sources]
      simp only [mem_leaves_items, itemGroups_eq, mem_leaves_where, mem_leaves_list, exprGroups_eq,
        mem_leaves_having, List.mem_map, List.mem_append, exists_exists_and_eq_and, leaves_item,
        Query.exprs, Query.operands, Query.allSources, operation, Option.toList_none,
        List.flatMap_nil, List.append_nil, Option.mem_toList, Option.mem_def, or_and_right,
        exists_or]
      exact Iff.of_eq (by ac_rfl)

end ReportSql.Tree
