import ReportSql.Proofs.Outcomes
import ReportSql.Proofs.SyntaxParts
import ReportSql.Tree.Read

/-!
Constructs that are converted to trees: what each of their parts is converted to.
-/
namespace ReportSql.Tree

/-- A guard that refuses a construct is passed where the construct is not there. -/
theorem guard_eq_ok {α β : Type} {c : Prop} [Decidable c] {construct : String}
    {f : α → Converted β} {x : Converted β} {b : β} :
    (if c then refuse construct >>= f else x) = .ok b ↔ ¬c ∧ x = .ok b := by
  split
  · simp [refuse, bind, Except.bind, *]
  · simp [*]

theorem query_of_read {text : String} {q : Query} (h : Query.read text = .ok q) :
    ∃ s, statements? text = some [.query s] ∧ Query.ofSyntax s = .ok q := by
  unfold Query.read at h
  split at h
  · cases h
  · next s found => exact ⟨s, found, ok_of_mapError h⟩
  · cases h

/-! ### Lists -/

theorem exprs_converted {xs : List Sql.Expr} {es : List Expr} (h : exprsOfSyntax xs = .ok es) :
    List.Forall₂ (fun x e => Expr.ofSyntax x = .ok e) xs es := by
  induction xs generalizing es with
  | nil =>
      cases h
      exact .nil
  | cons x xs ih =>
      simp only [exprsOfSyntax, bind_eq_ok] at h
      obtain ⟨e, own, es, others, h⟩ := h
      cases h
      exact .cons own (ih others)

theorem option_converted {x : Option Sql.Expr} {e : Option Expr} (h : optionOfSyntax x = .ok e) :
    Option.Rel (fun x e => Expr.ofSyntax x = .ok e) x e := by
  cases x with
  | none =>
      cases h
      exact .none
  | some x =>
      simp only [optionOfSyntax, bind_eq_ok] at h
      obtain ⟨e, own, h⟩ := h
      cases h
      exact .some own

theorem branches_converted {xs : List Sql.CaseBranch} {bs : List Branch}
    (h : branchesOfSyntax xs = .ok bs) :
    List.Forall₂ (fun x b => Expr.ofSyntax x.condition = .ok b.condition ∧
      Expr.ofSyntax x.result = .ok b.result) xs bs := by
  induction xs generalizing bs with
  | nil =>
      cases h
      exact .nil
  | cons x xs ih =>
      obtain ⟨condition, result⟩ := x
      simp only [branchesOfSyntax, bind_eq_ok] at h
      obtain ⟨c, first, r, second, bs, others, h⟩ := h
      cases h
      exact .cons ⟨first, second⟩ (ih others)

/-- Where no argument is a phrase, each is an expression or a star. -/
theorem arguments_converted {xs : List Sql.Argument} {es : List Expr}
    (h : argumentsOfSyntax xs = .ok (es, true)) :
    List.Forall₂ (fun x e => x = .star ∨ ∃ own, x = .expr own ∧ Expr.ofSyntax own = .ok e)
      xs es := by
  induction xs generalizing es with
  | nil =>
      cases h
      exact .nil
  | cons x xs ih =>
      cases x with
      | phrase pieces => cases h
      | star =>
          simp only [argumentsOfSyntax, bind_eq_ok] at h
          obtain ⟨⟨es, plain⟩, others, h⟩ := h
          cases h
          exact .cons (.inl rfl) (ih others)
      | expr x =>
          simp only [argumentsOfSyntax, bind_eq_ok] at h
          obtain ⟨e, own, ⟨es, plain⟩, others, h⟩ := h
          cases h
          exact .cons (.inr ⟨x, rfl, own⟩) (ih others)

theorem items_converted {xs : List Sql.SelectItem} {is : List SelectItem}
    (h : itemsOfSyntax xs = .ok is) :
    List.Forall₂ (fun x i => ∀ e ∈ x.expr?, Expr.ofSyntax e = .ok i.expr) xs is := by
  induction xs generalizing is with
  | nil =>
      cases h
      exact .nil
  | cons x xs ih =>
      cases x with
      | expr x label =>
          simp only [itemsOfSyntax, bind_eq_ok] at h
          obtain ⟨e, own, is, others, h⟩ := h
          cases h
          exact .cons (by rintro _ ⟨⟩; exact own) (ih others)
      | wildcard path =>
          simp only [itemsOfSyntax, bind_eq_ok] at h
          obtain ⟨is, others, h⟩ := h
          cases h
          exact .cons nofun (ih others)

theorem orders_converted {xs : List Sql.OrderItem} {os : List OrderItem}
    (h : orderOfSyntax xs = .ok os) :
    List.Forall₂ (fun x o => Expr.ofSyntax x.expr = .ok o.expr) xs os := by
  induction xs generalizing os with
  | nil =>
      cases h
      exact .nil
  | cons x xs ih =>
      obtain ⟨x, ascending, nullsFirst⟩ := x
      simp only [orderOfSyntax, bind_eq_ok] at h
      obtain ⟨e, own, os, others, h⟩ := h
      cases h
      exact .cons own (ih others)

theorem ctes_converted {isRecursive : Bool} {xs : List Sql.Cte} {cs : List Cte}
    (h : ctesOfSyntax isRecursive xs = .ok cs) :
    List.Forall₂ (fun x c => Query.ofSyntax x.query = .ok c.query) xs cs := by
  induction xs generalizing cs with
  | nil =>
      cases h
      exact .nil
  | cons x xs ih =>
      obtain ⟨label, materialized, query, source⟩ := x
      simp only [ctesOfSyntax, ↓guard_eq_ok, ↓bind_eq_ok] at h
      obtain ⟨-, q, own, cs, others, h⟩ := h
      cases h
      exact .cons own (ih others)

theorem joins_converted {xs : List Sql.Join} {js : List Join} (h : joinsOfSyntax xs = .ok js) :
    List.Forall₂ (fun x j => tableOfSyntax x.table = .ok j.source ∧
      optionOfSyntax x.condition = .ok j.condition) xs js := by
  induction xs generalizing js with
  | nil =>
      cases h
      exact .nil
  | cons x xs ih =>
      obtain ⟨isGlobal, operator, table, matching, form, condition⟩ := x
      simp only [joinsOfSyntax] at h
      cases kind : ofJoinOperator operator with
      | none => simp [kind, refuse, bind, Except.bind] at h
      | some kind =>
          simp only [kind, ↓guard_eq_ok, ↓bind_eq_ok] at h
          obtain ⟨_, -, -, c, on, s, own, js, others, h⟩ := h
          cases h
          exact .cons ⟨own, on⟩ (ih others)

theorem sources_converted {xs : List Sql.Source} {fs : List FromItem}
    (h : sourcesOfSyntax xs = .ok fs) :
    List.Forall₂ (fun x f => tableOfSyntax x.table = .ok f.source ∧
      joinsOfSyntax x.joins = .ok f.joins) xs fs := by
  induction xs generalizing fs with
  | nil =>
      cases h
      exact .nil
  | cons x xs ih =>
      obtain ⟨table, joins⟩ := x
      simp only [sourcesOfSyntax, bind_eq_ok] at h
      obtain ⟨s, own, js, joined, fs, others, h⟩ := h
      cases h
      exact .cons ⟨own, joined⟩ (ih others)

/-! ### Queries -/

/-- What the clauses of a SELECT are converted to where none of them is refused. -/
structure SelectConverted (s : Sql.Select) (q : Query) : Prop where
  top : s.top = []
  windows : s.windows = []
  qualify : s.qualify = none
  items : itemsOfSyntax s.items = .ok q.items
  sources : sourcesOfSyntax s.sources = .ok q.sources
  condition : optionOfSyntax s.condition = .ok q.condition
  groupBy : exprsOfSyntax s.groupBy = .ok q.groupBy
  having : optionOfSyntax s.having = .ok q.having
  setOperation : q.setOperation = none

theorem select_converted {s : Sql.Select} {q : Query} (h : selectOfSyntax s = .ok q) :
    SelectConverted s q := by
  obtain ⟨distinct, keys, top, items, into, sources, views, condition, groupAll, groupBy, sorting,
    having, windows, qualify, windowsFirst⟩ := s
  simp only [selectOfSyntax, ↓guard_eq_ok, ↓bind_eq_ok] at h
  obtain ⟨top, -, windows, qualify, -, is, items, fs, sources, -, ks, groupBy, c, condition, hs,
    having, h⟩ := h
  cases h
  exact {
    top := by simpa using top
    windows := by simpa using windows
    qualify := by simpa using qualify
    items, sources, condition, groupBy, having
    setOperation := rfl }

theorem value_of_count {x : Sql.Expr} {n : UInt64} (h : ofCount x = .ok n) :
    ∃ v, x = .value v := by
  cases x with
  | value v => exact ⟨v, rfl⟩
  | _ => cases h

/-- What the clauses around the body of a query are converted to, and the body itself. -/
structure QueryConverted (s : Sql.Query) (body q : Query) : Prop where
  inner : bodyOfSyntax s.body = .ok body
  ctes : ∃ ctes, ctesOfSyntax s.isRecursive s.ctes = .ok ctes ∧ q.ctes = ctes ++ body.ctes
  orderBy : ∃ orders, orderOfSyntax s.orderBy = .ok orders ∧
    (s.orderBy = [] ∧ q.orderBy = body.orderBy ∨ body.orderBy = [] ∧ q.orderBy = orders)
  counts : ∀ x, s.limit = some x ∨ s.offset = some x → ∃ v, x = .value v
  items : q.items = body.items
  sources : q.sources = body.sources
  condition : q.condition = body.condition
  groupBy : q.groupBy = body.groupBy
  having : q.having = body.having
  setOperation : q.setOperation = body.setOperation

theorem query_converted {s : Sql.Query} {q : Query} (h : Query.ofSyntax s = .ok q) :
    ∃ body, QueryConverted s body q := by
  obtain ⟨isRecursive, ctes, body, orderBy, limit, offset, unit, fetch, locks, output⟩ := s
  simp only [Query.ofSyntax, ↓guard_eq_ok, ↓bind_eq_ok] at h
  obtain ⟨-, -, out, inner, alone, cs, ctes, os, orders, h⟩ := h
  obtain ⟨⟨rows, rfl⟩, counts⟩ : (∃ rows, q = { out with
      ctes := cs ++ out.ctes
      orderBy := if orderBy.isEmpty then out.orderBy else os
      rows }) ∧ ∀ x, limit = some x ∨ offset = some x → ∃ v, x = .value v := by
    cases limit <;> cases offset <;> simp only [bind_eq_ok] at h
    · obtain ⟨_, -, _, -, h⟩ := h
      exact ⟨⟨_, (Except.ok.inj h).symm⟩, by simp⟩
    · obtain ⟨_, -, _, count, _, -, h⟩ := h
      exact ⟨⟨_, (Except.ok.inj h).symm⟩, by simpa using value_of_count count⟩
    · obtain ⟨_, count, _, -, _, -, h⟩ := h
      exact ⟨⟨_, (Except.ok.inj h).symm⟩, by simpa using value_of_count count⟩
    · obtain ⟨_, first, _, -, _, second, _, -, h⟩ := h
      refine ⟨⟨_, (Except.ok.inj h).symm⟩, ?_⟩
      rintro x (given | given) <;> obtain rfl := Option.some.inj given
      · exact value_of_count first
      · exact value_of_count second
  refine ⟨out, inner, ⟨cs, ctes, rfl⟩, ⟨os, orders, ?_⟩, counts, rfl, rfl, rfl, rfl, rfl, rfl⟩
  cases orderBy with
  | nil => exact .inl ⟨rfl, rfl⟩
  | cons o orderBy =>
      have sorted : out.orderBy = [] := by
        simp only [List.isEmpty_cons, Bool.not_false, Bool.true_or, Bool.true_and,
          Bool.or_eq_true, Bool.not_eq_true', List.isEmpty_eq_false_iff, not_or, not_not] at alone
        exact alone.1
      exact .inr ⟨sorted, rfl⟩

theorem operation_converted {left right : Sql.Body} {op : Sql.SetOperator}
    {quantifier : Sql.SetQuantifier} {q : Query}
    (h : bodyOfSyntax (.setOperation left op quantifier right) = .ok q) :
    ∃ o, q.setOperation = some o ∧ bodyOfSyntax left = .ok o.left ∧
      bodyOfSyntax right = .ok o.right := by
  cases quantifier <;> simp only [bodyOfSyntax, bind_eq_ok] at h
  case all | unmarked | distinct =>
    obtain ⟨all, -, l, first, r, second, h⟩ := h
    cases h
    exact ⟨_, rfl, first, second⟩
  all_goals
    obtain ⟨_, h, -⟩ := h
    cases h

end ReportSql.Tree
