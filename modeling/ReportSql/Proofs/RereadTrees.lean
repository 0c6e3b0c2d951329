import ReportSql.Proofs.LegibleTrees

/-!
The tree that the text of a tree is read as. Names of functions are written in upper case, an
operand of a cast in parentheses, and a test of an empty list as its value; every other part of a
tree is read as it was.
-/
namespace ReportSql.Tree

open Output (isWrittenBare spelled)
open Sql.Grammar (QueryParts)

/-! ### What a tree is read as -/

/-- The expression that a literal is read as: itself, but for a number that is too large, a text
that stands for a placeholder and a date that cannot be read. -/
def Literal.reread (v : Literal) : Expr :=
  match v with
  | .int n => ofValue (.number (toString n) false)
  | .float x => ofValue (.number (Output.floatText x) false)
  | .text s => ofValue (.text .plain s)
  | .date d =>
    let type : Sql.DataType := ⟨"DATE", .date⟩
    (ofTyped type d.text).getD (.raw (Sql.Expr.typed type d.text).render)
  | .boolean _ | .null => .literal v

/-- The row range that a row range is read as. -/
def rowsReread (rows : Option RowRange) : Option RowRange :=
  RowRange.ofCounts (rows.bind RowRange.limit) (rows.bind RowRange.offset)

mutual

/-- The expression that the text of an expression is read as. -/
def Expr.reread : Expr → Expr
  | .column table name => .column table name
  | .literal value => value.reread
  | .param name => .param name
  | .binary left op right => .binary left.reread op right.reread
  | .unary op operand => .unary op operand.reread
  | .call name arguments distinct => .call (Text.upper name) (exprsReread arguments) distinct
  | .case operand branches otherwise =>
    .case (optionReread operand) (branchesReread branches) (optionReread otherwise)
  | .subquery query => .subquery query.reread
  | .exists query negated => .exists query.reread negated
  | .inList operand values negated =>
    match values with
    | [] => .literal (.boolean negated)
    | values => .inList operand.reread (exprsReread values) negated
  | .inQuery operand query negated => .inQuery operand.reread query.reread negated
  | .between operand low high negated => .between operand.reread low.reread high.reread negated
  | .isNull operand negated => .isNull operand.reread negated
  | .isTruth operand value negated => .isTruth operand.reread value negated
  | .cast operand type =>
    .cast (if operand.isAtomic then operand.reread else .paren operand.reread) (castType type).text
  | .interval text => .interval text
  | .star table => .star table
  | .paren inner => .paren inner.reread
  | .raw sql => ofValue (.number sql false)

def optionReread : Option Expr → Option Expr
  | none => none
  | some e => some e.reread

def exprsReread : List Expr → List Expr
  | [] => []
  | e :: rest => e.reread :: exprsReread rest

def branchesReread : List Branch → List Branch
  | [] => []
  | ⟨condition, result⟩ :: rest => ⟨ condition.reread, result.reread⟩ :: branchesReread rest

/-- The query that the text of a query is read as. -/
def Query.reread : Query → Query
  | ⟨ctes, items, distinct, sources, condition, groupBy, having, orderBy, rows, setOperation⟩ =>
    let body := match setOperation with
      | some operation => { Query.empty with setOperation := some operation.reread }
      | none => { Query.empty with
          items := itemsReread items
          distinct
          sources := sourcesReread sources
          condition := optionReread condition
          groupBy := exprsReread groupBy
          having := optionReread having }
    { body with
      ctes := ctesReread (ctes.any Cte.isRecursive) ctes
      orderBy := ordersReread orderBy
      rows := rowsReread rows }

def ctesReread (isRecursive : Bool) : List Cte → List Cte
  | [] => []
  | ⟨name, _, query, _⟩ :: rest =>
    ⟨name, none, query.reread, isRecursive⟩ :: ctesReread isRecursive rest

def itemsReread : List SelectItem → List SelectItem
  | [] => []
  | ⟨expr, label⟩ :: rest => ⟨ expr.reread, label⟩ :: itemsReread rest

def sourcesReread : List FromItem → List FromItem
  | [] => []
  | ⟨source, joins⟩ :: rest => ⟨ source.reread, joinsReread joins⟩ :: sourcesReread rest

def Source.reread : Source → Source
  | .named table => .named table
  | .derived query label => .derived query.reread label
  | .raw sql => .raw sql

def joinsReread : List Join → List Join
  | [] => []
  | ⟨kind, source, condition⟩ :: rest =>
    ⟨kind, source.reread, optionReread condition⟩ :: joinsReread rest

def ordersReread : List OrderItem → List OrderItem
  | [] => []
  | ⟨expr, direction, nulls⟩ :: rest => ⟨ expr.reread, direction, nulls⟩ :: ordersReread rest

def SetOperation.reread : SetOperation → SetOperation
  | ⟨left, op, all, right⟩ => ⟨ left.reread, op, all, right.reread⟩

end

/-- The query that the body of a query is read as. -/
def Query.bodyReread (q : Query) : Query :=
  match q.setOperation with
  | some operation => { Query.empty with setOperation := some operation.reread }
  | none => { Query.empty with
      items := itemsReread q.items
      distinct := q.distinct
      sources := sourcesReread q.sources
      condition := optionReread q.condition
      groupBy := exprsReread q.groupBy
      having := optionReread q.having }

theorem Query.reread_eq (q : Query) : q.reread = { q.bodyReread with
    ctes := ctesReread (q.ctes.any Cte.isRecursive) q.ctes
    orderBy := ordersReread q.orderBy
    rows := rowsReread q.rows } := by
  obtain ⟨_, _, _, _, _, _, _, _, _, operation⟩ := q
  cases operation <;> rfl

/-! ### Expressions -/

variable {e l r low high : Expr} {q : Query} {es : List Expr} {o : Option Expr} {name : String}
  {branches : List Branch} {negated : Bool} {label : Option String}

/-- Whether the syntax of an expression is converted to the tree that it is read as. -/
def Expr.Converts (e : Expr) : Prop := Expr.ofSyntax e.toSyntax = .ok e.reread

/-- Whether the syntax of a query is converted to the tree that it is read as, and so is the body of
the syntax. -/
structure Query.Converts (q : Query) : Prop where
  whole : Query.ofSyntax q.toSyntax = .ok q.reread
  body : bodyOfSyntax q.toSyntax.body = .ok q.bodyReread

theorem foldedName_nameIdent : foldedName (nameIdent name) = name := by
  unfold foldedName nameIdent
  by_cases bare : isWrittenBare name = true
  · have written := bare
    simp only [isWrittenBare, Bool.and_eq_true] at written
    simp [bare, Output.lower_bareName written.1]
  · simp [bare]

theorem sentinelName?_sentinel (h : Sql.Placeholder.isName name = true) :
    Sql.Placeholder.sentinelName? (Sql.Placeholder.sentinelMark ++ name) = some name := by
  obtain ⟨c, tail, cons, -, parts⟩ := Sql.isName_cons h
  have all : name.toList.all Sql.Placeholder.isNamePart = true := List.all_eq_true.mpr parts
  have nonempty : name.toList.isEmpty = false := by rw [cons]; rfl
  have opening : Sql.Placeholder.sentinelMark.toList.isPrefixOf
      (Sql.Placeholder.sentinelMark.toList ++ name.toList) = true :=
    List.isPrefixOf_iff_prefix.mpr (List.prefix_append _ _)
  simp only [Sql.Placeholder.sentinelName?, String.toList_append, opening, if_true,
    List.drop_left, nonempty, all, Bool.not_false, Bool.and_self, String.ofList_toList]

/-! What follows a conversion that succeeds. -/

theorem returned {α β : Type} {x : Converted α} {a : α} (hx : x = .ok a) (f : α → β) :
    (do return f (← x) : Converted β) = .ok (f a) := by
  rw [hx]
  rfl

theorem returned₂ {α β γ : Type} {x : Converted α} {y : Converted β} {a : α} {b : β}
    (hx : x = .ok a) (hy : y = .ok b) (f : α → β → γ) :
    (do let a ← x
        return f a (← y) : Converted γ) = .ok (f a b) := by
  rw [hx, hy]
  rfl

theorem returned₃ {α β γ δ : Type} {x : Converted α} {y : Converted β} {z : Converted γ}
    {a : α} {b : β} {c : γ} (hx : x = .ok a) (hy : y = .ok b) (hz : z = .ok c)
    (f : α → β → γ → δ) :
    (do let a ← x
        let b ← y
        return f a b (← z) : Converted δ) = .ok (f a b c) := by
  rw [hx, hy, hz]
  rfl

theorem converts_column (table : Option String) : (Expr.column table name).Converts := by
  cases table with
  | none =>
      exact congrArg (fun column => Except.ok (Expr.column none column)) foldedName_nameIdent
  | some t =>
      exact congrArg₂ (fun table column => Except.ok (Expr.column (some table) column))
        foldedName_nameIdent foldedName_nameIdent

theorem converts_literal {value : Literal} : (Expr.literal value).Converts := by
  cases value <;> rfl

theorem converts_param (h : Sql.Placeholder.isName name = true) : (Expr.param name).Converts := by
  have read : ofValue (.text .plain (Sql.Placeholder.sentinelMark ++ name)) = .param name := by
    simp only [ofValue, sentinelName?_sentinel h]
  exact congrArg Except.ok read

theorem Expr.Converts.binary {op : BinaryOp} (hl : l.Converts) (hr : r.Converts) :
    (Expr.binary l op r).Converts := by
  cases op <;> exact returned₂ hl hr fun left right => Expr.binary left _ right

theorem Expr.Converts.unary {op : UnaryOp} (h : e.Converts) : (Expr.unary op e).Converts := by
  cases op <;> exact returned h (Expr.unary _)

theorem exprs_convert (h : ∀ e ∈ es, e.Converts) :
    exprsOfSyntax (exprsSyntax es) = .ok (exprsReread es) := by
  induction es with
  | nil => rfl
  | cons e es ih =>
      obtain ⟨own, others⟩ := List.forall_mem_cons.mp h
      exact returned₂ own (ih others) List.cons

theorem option_converts (h : ∀ e ∈ o, e.Converts) :
    optionOfSyntax (optionSyntax o) = .ok (optionReread o) := by
  cases o with
  | none => rfl
  | some e => exact returned (h e rfl) some

theorem branches_convert
    (h : ∀ b ∈ branches, b.condition.Converts ∧ b.result.Converts) :
    branchesOfSyntax (branchesSyntax branches) = .ok (branchesReread branches) := by
  induction branches with
  | nil => rfl
  | cons b branches ih =>
      obtain ⟨own, others⟩ := List.forall_mem_cons.mp h
      obtain ⟨condition, result⟩ := b
      exact returned₃ own.1 own.2 (ih others) fun condition result rest =>
        Branch.mk condition result :: rest

theorem arguments_convert (h : ∀ e ∈ es, e = .star none ∨ e.isStar = false ∧ e.Converts) :
    argumentsOfSyntax (argumentsSyntax es) = .ok (exprsReread es, true) := by
  induction es with
  | nil => rfl
  | cons e es ih =>
      obtain ⟨own, others⟩ := List.forall_mem_cons.mp h
      have more := ih others
      rcases own with rfl | ⟨plain, converts⟩
      · exact returned more fun found => (Expr.star none :: found.1, found.2)
      · simp only [argumentsSyntax, plain, Bool.false_eq_true, if_false]
        exact returned₂ converts more fun e found => (e :: found.1, found.2)

theorem converts_call {distinct : Bool} (readable : argumentsReadable es = true)
    (own : ∀ e ∈ es, e.isReadable = true → e.Converts) :
    (Expr.call name es distinct).Converts := by
  have arguments := arguments_convert fun e he =>
    (argumentsReadable_cases readable e he).imp_right fun h => ⟨h.1, own e he h.2⟩
  cases distinct <;>
    exact returned arguments fun found =>
      if found.2 then Expr.call (Sql.pathText _) found.1 _ else Expr.raw _

theorem Expr.Converts.case {operand otherwise : Option Expr} (ho : ∀ e ∈ operand, e.Converts)
    (hb : ∀ b ∈ branches, b.condition.Converts ∧ b.result.Converts)
    (he : ∀ e ∈ otherwise, e.Converts) : (Expr.case operand branches otherwise).Converts :=
  returned₃ (option_converts ho) (branches_convert hb) (option_converts he) Expr.case

theorem Query.Converts.subquery (h : q.Converts) : (Expr.subquery q).Converts :=
  returned h.whole Expr.subquery

theorem Query.Converts.exists (h : q.Converts) : (Expr.exists q negated).Converts :=
  returned h.whole fun query => Expr.exists query negated

theorem Expr.Converts.inList (h : es.isEmpty = true ∨ e.Converts) (hs : ∀ x ∈ es, x.Converts) :
    (Expr.inList e es negated).Converts := by
  cases es with
  | nil => rfl
  | cons x es =>
      exact returned₂ (h.resolve_left nofun) (exprs_convert hs) fun operand values =>
        Expr.inList operand values negated

theorem Query.Converts.inQuery (h : q.Converts) (he : e.Converts) :
    (Expr.inQuery e q negated).Converts :=
  returned₂ he h.whole fun operand query => Expr.inQuery operand query negated

theorem Expr.Converts.between (h : e.Converts) (hl : low.Converts) (hh : high.Converts) :
    (Expr.between e low high negated).Converts :=
  returned₃ h hl hh fun operand low high => Expr.between operand low high negated

theorem Expr.Converts.isNull (h : e.Converts) : (Expr.isNull e negated).Converts :=
  returned h fun operand => Expr.isNull operand negated

theorem Expr.Converts.isTruth {value : Bool} (h : e.Converts) :
    (Expr.isTruth e value negated).Converts :=
  returned h fun operand => Expr.isTruth operand value negated

theorem Expr.Converts.paren (h : e.Converts) : (Expr.paren e).Converts := returned h Expr.paren

theorem Expr.Converts.cast {type : String} (h : e.Converts) : (Expr.cast e type).Converts := by
  unfold Expr.Converts
  simp only [Expr.toSyntax, Expr.reread]
  by_cases atomic : e.isAtomic = true
  · simp only [atomic, if_true]
    exact returned h fun operand => Expr.cast operand _
  · simp only [atomic, Bool.false_eq_true, if_false]
    exact returned h.paren fun operand => Expr.cast operand _

/-! ### Queries -/

/-- Decimal digits denote the number that is written with them. -/
theorem digitsBelow_toString {bound n : Nat} (h : n < bound) :
    digitsBelow bound (toString n) = some n := by
  have digits : (toString n).toList = Nat.toDigits 10 n := by
    simp [Nat.repr, toString]
  have nonempty : (toString n).isEmpty = false := by
    rw [Bool.eq_false_iff, ne_eq, String.isEmpty_iff, ← String.toList_eq_nil_iff, digits]
    exact Nat.toDigits_ne_nil
  have all : (toString n).all Char.isDigit = true := by
    rw [String.all_bool_eq, digits, List.all_eq_true]
    exact fun c hc => Nat.isDigit_of_mem_toDigits (by decide) (by decide) hc
  have value : (toString n).toList.foldl (fun n c => 10 * n + (c.toNat - '0'.toNat)) 0 = n := by
    rw [digits]
    exact Nat.ofDigitChars_toDigits (by decide) (by decide)
  simp only [digitsBelow, nonempty, all, Bool.not_true, Bool.or_self, Bool.false_eq_true, if_false,
    value, if_pos h]

theorem rowCount_eq {c : UInt64} (h : 0 ≤ Output.rowCount c) : Output.rowCount c = c.toNat := by
  have signed : Output.rowCount c = c.toBitVec.toInt := rfl
  have bound := c.toBitVec.isLt
  rw [signed, BitVec.toInt_eq_toNat_cond] at h
  rw [signed, BitVec.toInt_eq_toNat_cond]
  split at h
  · next small =>
    rw [if_pos small]
    rfl
  · omega

theorem count_converts {c : UInt64} (h : 0 ≤ Output.rowCount c) :
    ofCount (countSyntax c) = .ok c := by
  have digits : digitsBelow UInt64.size (toString (Output.rowCount c)) = some c.toNat := by
    rw [rowCount_eq h]
    exact digitsBelow_toString c.toNat_lt_size
  unfold countSyntax
  simp only [ofCount]
  rw [digits]
  exact congrArg Except.ok UInt64.ofNat_toNat

theorem ctes_convert {ctes : List Cte} {isRecursive : Bool} (h : ∀ c ∈ ctes, c.query.Converts) :
    ctesOfSyntax isRecursive (ctesSyntax ctes) = .ok (ctesReread isRecursive ctes) := by
  induction ctes with
  | nil => rfl
  | cons c ctes ih =>
      obtain ⟨own, others⟩ := List.forall_mem_cons.mp h
      obtain ⟨name, columns, query, recursive⟩ := c
      refine (returned₂ own.whole (ih others) fun query rest =>
        Cte.mk (foldedName (nameIdent name)) none query isRecursive :: rest).trans ?_
      rw [foldedName_nameIdent]
      rfl

theorem aliasName_aliasSyntax : aliasName (aliasSyntax label) = label := by
  cases label with
  | none => rfl
  | some l => simp [aliasName, aliasSyntax, foldedName_nameIdent]

theorem hasColumns_aliasSyntax : hasColumns (aliasSyntax label) = false := by
  cases label <;> rfl

theorem reread_star : (Expr.raw "*").reread = .raw "*" := by
  have other : "*".all Char.isDigit = false := by
    rw [String.all_bool_eq]
    decide
  simp [Expr.reread, ofValue, digitsBelow, other]

theorem items_convert {items : List SelectItem} (h : ∀ i ∈ items,
    i = ⟨.raw "*", none⟩ ∨ i.expr.isWildcard = false ∧ i.expr.Converts) :
    itemsOfSyntax (itemsSyntax items) = .ok (itemsReread items) := by
  induction items with
  | nil => rfl
  | cons i items ih =>
      obtain ⟨own, others⟩ := List.forall_mem_cons.mp h
      have more := ih others
      rcases own with rfl | ⟨plain, converts⟩
      · have star : itemsReread (⟨.raw "*", none⟩ :: items) =
            ⟨.raw "*", none⟩ :: itemsReread items := by
          simp only [itemsReread, reread_star]
        rw [star]
        exact returned more fun rest => SelectItem.mk (.raw "*") none :: rest
      · obtain ⟨expr, label⟩ := i
        have names : (label.map nameIdent).map foldedName = label := by
          cases label <;> simp [foldedName_nameIdent]
        simp only [itemsSyntax, show expr.isWildcard = false from plain, Bool.false_eq_true,
          if_false]
        refine (returned₂ converts more fun expr rest =>
          SelectItem.mk expr ((label.map nameIdent).map foldedName) :: rest).trans ?_
        rw [names]
        rfl

def Source.Converts (s : Source) : Prop := tableOfSyntax s.toSyntax = .ok s.reread

theorem source_converts {s : Source} (own : ∀ r ∈ s.query?, r.isReadable = true → r.Converts)
    (h : s.isReadable = true) : s.Converts := by
  cases s with
  | named table =>
      obtain ⟨schema, table, label⟩ := table
      cases schema <;>
        simp [Source.Converts, Source.toSyntax, TableRef.toSyntax, tableOfSyntax,
          hasColumns_aliasSyntax, aliasName_aliasSyntax, tableRef?, foldedName_nameIdent,
          Source.reread] <;>
        rfl
  | derived query label =>
      have converts := (own query rfl h).whole
      have read : tableOfSyntax (Source.derived query label).toSyntax =
          .ok (.derived query.reread (aliasName (aliasSyntax label))) := by
        cases label <;> exact returned converts fun query => Source.derived query (aliasName _)
      rw [aliasName_aliasSyntax] at read
      exact read
  | raw sql => cases h

theorem joins_convert {joins : List Join} (hs : ∀ j ∈ joins, j.source.Converts)
    (hc : ∀ j ∈ joins, ∀ e ∈ j.condition, e.Converts) :
    joinsOfSyntax (joinsSyntax joins) = .ok (joinsReread joins) := by
  induction joins with
  | nil => rfl
  | cons j joins ih =>
      obtain ⟨source, sources⟩ := List.forall_mem_cons.mp hs
      obtain ⟨condition, conditions⟩ := List.forall_mem_cons.mp hc
      obtain ⟨kind, table, on⟩ := j
      unfold Source.Converts at source
      have operator : ofJoinOperator kind.toSyntax = some kind := by cases kind <;> rfl
      have form : ((if on.isSome then Sql.JoinForm.on else .unmarked) != .unmarked &&
          (if on.isSome then Sql.JoinForm.on else .unmarked) != .on) = false := by
        cases on <;> rfl
      simp only [joinsSyntax, joinsOfSyntax, operator, form, option_converts condition, source,
        ih sources conditions, joinsReread]
      rfl

theorem sources_convert {sources : List FromItem}
    (h : ∀ f ∈ sources, f.source.Converts ∧ joinsOfSyntax (joinsSyntax f.joins) =
      .ok (joinsReread f.joins)) :
    sourcesOfSyntax (sourcesSyntax sources) = .ok (sourcesReread sources) := by
  induction sources with
  | nil => rfl
  | cons f sources ih =>
      obtain ⟨own, others⟩ := List.forall_mem_cons.mp h
      obtain ⟨source, joins⟩ := f
      exact returned₃ own.1 own.2 (ih others) fun source joins rest =>
        FromItem.mk source joins :: rest

theorem orders_convert {orders : List OrderItem} (h : ∀ o ∈ orders, o.expr.Converts) :
    orderOfSyntax (ordersSyntax orders) = .ok (ordersReread orders) := by
  induction orders with
  | nil => rfl
  | cons o orders ih =>
      obtain ⟨own, others⟩ := List.forall_mem_cons.mp h
      obtain ⟨expr, direction, nulls⟩ := o
      rcases direction with _ | _ | _ <;> rcases nulls with _ | _ | _ <;>
        exact returned₂ own (ih others) fun expr rest => OrderItem.mk expr _ _ :: rest

theorem bodyReread_rest (q : Query) :
    q.bodyReread.ctes = [] ∧ q.bodyReread.orderBy = [] ∧ q.bodyReread.rows = none := by
  unfold Query.bodyReread
  split <;> exact ⟨rfl, rfl, rfl⟩

theorem ordersReread_ite (orders : List OrderItem) :
    (if (ordersSyntax orders).isEmpty then [] else ordersReread orders) = ordersReread orders := by
  cases orders with
  | nil => rfl
  | cons o orders =>
      obtain ⟨expr, direction, nulls⟩ := o
      rfl

theorem ofCounts_ite (limit offset : Option UInt64) :
    (if (RowRange.ofCounts limit offset).isSome then RowRange.ofCounts limit offset else none) =
      RowRange.ofCounts limit offset := by
  cases limit <;> cases offset <;> rfl

theorem counts_readable {rows : Option RowRange} (h : rows.all RowRange.isReadable = true) :
    (∀ c ∈ rows.bind RowRange.limit, 0 ≤ Output.rowCount c) ∧
      ∀ c ∈ rows.bind RowRange.offset, 0 ≤ Output.rowCount c := by
  cases rows with
  | none => exact ⟨nofun, nofun⟩
  | some r =>
      simp only [Option.all_some, RowRange.isReadable, Bool.and_eq_true, Option.all_eq_true] at h
      exact ⟨fun c hc => of_decide_eq_true (h.1 c hc), fun c hc => of_decide_eq_true (h.2 c hc)⟩

theorem query_converts {q : Query} (body : bodyOfSyntax q.toSyntax.body = .ok q.bodyReread)
    (ctes : ctesOfSyntax (q.ctes.any Cte.isRecursive) (ctesSyntax q.ctes) =
      .ok (ctesReread (q.ctes.any Cte.isRecursive) q.ctes))
    (orders : orderOfSyntax (ordersSyntax q.orderBy) = .ok (ordersReread q.orderBy))
    (rows : q.rows.all RowRange.isReadable = true) :
    Query.ofSyntax q.toSyntax = .ok q.reread := by
  obtain ⟨noCtes, noOrder, noRows⟩ := bodyReread_rest q
  have ok_bind : ∀ {α β : Type} (a : α) (f : α → Converted β), (Except.ok a >>= f) = f a :=
    fun _ _ => rfl
  have pure_bind : ∀ {α β : Type} (a : α) (f : α → Converted β), (pure a >>= f) = f a :=
    fun _ _ => rfl
  obtain ⟨limits, offsets⟩ := counts_readable rows
  rw [Query.toSyntax_parts, Query.reread_eq]
  unfold rowsReread Query.partsSyntax QueryParts.query
  generalize q.rows.bind RowRange.limit = limit at limits
  generalize q.rows.bind RowRange.offset = offset at offsets
  have limitRead : ∀ c, limit = some c → ofCount (countSyntax c) = .ok c :=
    fun c hc => count_converts (limits c hc)
  have offsetRead : ∀ c, offset = some c → ofCount (countSyntax c) = .ok c :=
    fun c hc => count_converts (offsets c hc)
  cases limit <;> cases offset <;>
    simp only [Query.ofSyntax, body, ctes, orders, Option.isSome_none, Option.map_none,
      Option.map_some, List.isEmpty_nil, Bool.not_true, Bool.false_eq_true, if_false, ok_bind,
      pure_bind, noCtes, noOrder, noRows, Bool.or_self, Bool.and_false, List.append_nil,
      ordersReread_ite, ofCounts_ite, limitRead, offsetRead] <;>
    rfl

/-- A chain of set operations is converted without the clauses around it. -/
theorem operand_converts (h : q.Converts) :
    bodyOfSyntax (if q.isBareSetOperation then q.toSyntax.body else .query q.toSyntax) =
      .ok q.reread := by
  by_cases bare : q.isBareSetOperation = true
  · have whole : q.bodyReread = q.reread := by
      obtain ⟨noCtes, noOrder, noRows⟩ := bodyReread_rest q
      simp only [Query.isBareSetOperation, Bool.and_eq_true, List.isEmpty_iff,
        Option.isNone_iff_eq_none] at bare
      rw [Query.reread_eq, bare.1.1.2, bare.1.2, bare.2]
      generalize q.bodyReread = body at noCtes noOrder noRows
      obtain ⟨ctes, _, _, _, _, _, _, orderBy, rows, _⟩ := body
      obtain rfl : ctes = [] := noCtes
      obtain rfl : orderBy = [] := noOrder
      obtain rfl : rows = none := noRows
      rfl
    simp only [bare, if_true]
    rw [h.body, whole]
  · simp only [bare, Bool.false_eq_true, if_false, bodyOfSyntax]
    exact h.whole

theorem operation_converts {left right : Query} {op : Sql.SetOperator} {all : Bool}
    (hl : left.Converts) (hr : right.Converts) :
    bodyOfSyntax (SetOperation.mk left op all right).toSyntax =
      .ok { Query.empty with setOperation := some (SetOperation.mk left op all right).reread } := by
  have first := operand_converts hl
  have second := hr.whole
  cases all <;>
    simp only [SetOperation.toSyntax, bodyOfSyntax, first, second, SetOperation.reread, if_true,
      Bool.false_eq_true, if_false] <;>
    rfl

theorem select_converts
    (items : itemsOfSyntax (itemsSyntax q.items) = .ok (itemsReread q.items))
    (sources : sourcesOfSyntax (sourcesSyntax q.sources) = .ok (sourcesReread q.sources))
    (condition : ∀ e ∈ q.condition, e.Converts) (keys : ∀ e ∈ q.groupBy, e.Converts)
    (having : ∀ e ∈ q.having, e.Converts) (plain : q.setOperation = none) :
    selectOfSyntax q.selectSyntax.select = .ok q.bodyReread := by
  have where_ := option_converts condition
  have having_ := option_converts having
  have groups := exprs_convert keys
  obtain ⟨_, _, distinct, _, _, _, _, _, _, _⟩ := q
  obtain rfl := plain
  cases distinct <;>
    simp only [Query.selectSyntax, Sql.Grammar.SelectParts.select, selectOfSyntax, items, sources,
      groups, where_, having_, Query.bodyReread] <;>
    rfl

theorem body_converts (own : ∀ e ∈ q.exprs, e.isReadable = true → e.Converts)
    (operands : ∀ r ∈ q.operands, r.isReadable = true → r.Converts) (h : q.bodyReadable = true) :
    bodyOfSyntax q.toSyntax.body = .ok q.bodyReread := by
  cases operation : q.setOperation with
  | some o =>
      obtain ⟨left, op, all, right⟩ := o
      simp only [Query.bodyReadable, operation, SetOperation.isReadable, Bool.and_eq_true] at h
      have side : ∀ r ∈ [left, right], r.isReadable = true → r.Converts :=
        fun r hr => operands r (side_mem_operands operation hr)
      rw [toSyntax_operation operation,
        operation_converts (side left (by simp) h.1.1) (side right (by simp) h.1.2)]
      simp only [Query.bodyReread, operation]
  | none =>
      simp only [Query.bodyReadable, operation, Bool.and_eq_true, optionReadable_iff] at h
      obtain ⟨⟨⟨⟨⟨⟨-, items⟩, -⟩, sources⟩, condition⟩, keys⟩, having⟩ := h
      have list := items_convert fun i hi => (itemsReadable_cases items i hi).imp_right fun kind =>
        ⟨kind.1, own _ (item_mem_exprs hi) kind.2⟩
      have entries : ∀ f ∈ q.sources, f.source.Converts ∧
          joinsOfSyntax (joinsSyntax f.joins) = .ok (joinsReread f.joins) := by
        intro f hf
        obtain ⟨readable, joins⟩ := sourcesReadable_parts sources f hf
        have parts := joinsReadable_parts joins
        have each : ∀ s ∈ f.allSources, s.isReadable = true → s.Converts := fun s hs =>
          source_converts fun r hr => operands r (source_mem_operands hf hs hr)
        obtain ⟨leading, joined⟩ := List.forall_mem_cons.mp each
        exact ⟨leading readable, joins_convert
          (fun j hj => List.forall_mem_map.mp joined j hj (parts j hj).1)
          fun j hj e he => own e (joinCondition_mem_exprs hf hj he) ((parts j hj).2 e he)⟩
      rw [toSyntax_select operation]
      exact select_converts list (sources_convert entries)
        (fun e he => own e (condition_mem_exprs he) (condition e he))
        (fun e he => own e (key_mem_exprs he) (keysReadable_exprs keys e he))
        (fun e he => own e (having_mem_exprs he) (having e he)) operation

theorem Query.converts_step (own : ∀ e ∈ q.exprs, e.isReadable = true → e.Converts)
    (operands : ∀ r ∈ q.operands, r.isReadable = true → r.Converts) (h : q.isReadable = true) :
    q.Converts := by
  rw [Query.isReadable_eq] at h
  simp only [Bool.and_eq_true] at h
  obtain ⟨⟨⟨⟨definitions, -⟩, body⟩, orders⟩, rows⟩ := h
  have core := body_converts own operands body
  have ctes : ∀ c ∈ q.ctes, c.query.Converts := fun c hc =>
    operands _ (cte_mem_operands hc) (ctesReadable_parts definitions c hc).2
  have keys := orders_convert fun o ho =>
    own _ (order_mem_exprs ho) (ordersReadable_iff.mp orders o ho)
  exact ⟨query_converts core (ctes_convert ctes) keys rows, core⟩

/-- The syntax of a tree that can be read back is converted to the tree that it is read as. -/
theorem convertsSteps : ReadableSteps Expr.Converts Query.Converts where
  column _ := converts_column _
  literal _ := converts_literal
  param h := converts_param h
  binary left right _ _ := left.binary right
  not operand _ _ := operand.unary
  minus operand _ _ := operand.unary
  call _ _ readable _ own := converts_call readable own
  case operand _ branches otherwise := .case operand branches otherwise
  subquery query _ := query.subquery
  existence query := query.exists
  inList operand values := .inList (operand.imp_right And.left) values
  inQuery operand query _ _ := query.inQuery operand
  between operand low high _ _ _ _ := operand.between low high
  isNull operand _ := operand.isNull
  isTruth operand _ := operand.isTruth
  cast operand _ _ := operand.cast
  interval := rfl
  paren inner := inner.paren
  raw _ := rfl
  query h exprs operands := Query.converts_step exprs operands h

/-! ### Literals that are read as they were -/

theorem reread_int {n : Int} (positive : 0 ≤ n) (h : n < UInt64.size / 2) :
    (Expr.literal (.int n)).reread = .literal (.int n) := by
  obtain ⟨n, rfl⟩ := Int.eq_ofNat_of_zero_le positive
  have digits : digitsBelow (UInt64.size / 2) (toString n) = some n :=
    digitsBelow_toString (by exact_mod_cast h)
  have text : toString (n : Int) = toString n := rfl
  simp only [Expr.reread, Literal.reread, ofValue, text, digits]

theorem reread_text {s : String} (h : Sql.Placeholder.sentinelName? s = none) :
    (Expr.literal (.text s)).reread = .literal (.text s) := by
  simp only [Expr.reread, Literal.reread, ofValue, h]

/-! ### Reading the text of a tree -/

/-- The text of a query that can be read back is read as the query, but for what is written in
another form. -/
theorem queryText_read (h : q.isReadable = true) (hd : q.depth ≤ 48) :
    Query.read q.sql = .ok q.reread := by
  delta Query.read
  simp only [statements?_sql h hd, (convertsSteps.queries h).whole]
  rfl

end ReportSql.Tree
