import ReportSql.Proofs.LegibleTrees

/-!
Names that start no construct. Where the tables of a query go by such names, its clauses can be
read back one by one, and its levels are those of its deepest clause and one more.
-/
namespace ReportSql.Tree

open Output (Token nameToken spelled)

variable {e f : Expr} {q : Query} {name table k : String} {ts us : List Token}
  {groups : List (List Token)} {n : Nat}

/-! ### What tokens start with -/

theorem opener_append (first : opener ts ≠ some k) (rest : opener us ≠ some k) :
    opener (ts ++ us) ≠ some k := by
  unfold opener at *
  rw [Output.spelled_append]
  cases own : spelled ts with
  | nil => exact rest
  | cons t more =>
      rw [own] at first
      exact first

theorem opener_flatten (h : ∀ g ∈ groups, opener g ≠ some k) : opener groups.flatten ≠ some k := by
  induction groups with
  | nil => exact nofun
  | cons g groups ih =>
      obtain ⟨own, others⟩ := List.forall_mem_cons.mp h
      exact opener_append own (ih others)

/-- Whether a name can stand first in an expression, a select list, a key of a group or a source. -/
def startsFreely (name : String) : Bool :=
  isColumnStart name &&
    !(nameToken name).keyword?.any ["TOP", "GROUPING", "CUBE", "ROLLUP", "UNNEST"].contains

theorem opener_column (table : Option String) :
    opener (Expr.column table name).tokens = (nameToken (table.getD name)).keyword? := by
  cases table <;> simp [opener, Expr.tokens, qualifier]

theorem keyword_of_startsFreely (h : startsFreely name = true) :
    ∀ k ∈ ["TOP", "GROUPING", "CUBE", "ROLLUP", "UNNEST"], (nameToken name).keyword? ≠ some k := by
  simp only [startsFreely, Bool.and_eq_true, Bool.not_eq_true'] at h
  intro k hk same
  rw [same, Option.any_some] at h
  exact absurd (List.contains_iff_mem.mpr hk) (Bool.eq_false_iff.mp h.2)

theorem column_readable {table : Option String} (h : startsFreely (table.getD name) = true) :
    (Expr.column table name).isReadable = true := by
  simp only [startsFreely, Bool.and_eq_true] at h
  exact h.1

theorem colOf_readable (h : startsFreely table = true) (name : String) :
    (Expr.colOf table name).isReadable = true :=
  column_readable h

theorem col_readable (h : startsFreely name = true) : (Expr.col name).isReadable = true :=
  column_readable h

/-! ### Levels of lists -/

theorem exprsDepth_le {es : List Expr} : exprsDepth es ≤ n ↔ ∀ e ∈ es, e.depth ≤ n := by
  induction es with
  | nil => simp [exprsDepth]
  | cons e es ih => simp [exprsDepth, Nat.max_le, ih]

theorem itemsDepth_le {items : List SelectItem} :
    itemsDepth items ≤ n + 1 ↔ ∀ i ∈ items, i.expr.depth ≤ n := by
  induction items with
  | nil => simp [itemsDepth]
  | cons i items ih =>
      obtain ⟨expr, label⟩ := i
      simp [itemsDepth, Nat.max_le, ih]

theorem ordersDepth_le {orders : List OrderItem} :
    ordersDepth orders ≤ n ↔ ∀ o ∈ orders, o.expr.depth ≤ n := by
  induction orders with
  | nil => simp [ordersDepth]
  | cons o orders ih =>
      obtain ⟨expr, direction, nulls⟩ := o
      simp [ordersDepth, Nat.max_le, ih]

theorem ctesDepth_le {ctes : List Cte} :
    ctesDepth ctes ≤ n + 1 ↔ ∀ c ∈ ctes, c.query.depth ≤ n := by
  induction ctes with
  | nil => simp [ctesDepth]
  | cons c ctes ih =>
      obtain ⟨name, columns, query, recursive⟩ := c
      simp [ctesDepth, Nat.max_le, ih]

theorem optionDepth_le {o : Option Expr} : optionDepth o ≤ n ↔ ∀ e ∈ o, e.depth ≤ n := by
  cases o <;> simp [optionDepth]

/-! ### Expressions -/

/-- Whether an expression can be read back within some levels. -/
def Expr.Fits (n : Nat) (e : Expr) : Prop := e.isReadable = true ∧ e.depth ≤ n

/-- Whether an expression can be read back within some levels, on either side of any operator. -/
structure Expr.IsOperand (n : Nat) (e : Expr) : Prop where
  fits : e.Fits n
  level : 140 ≤ e.level
  edge : 140 ≤ e.edge

theorem Expr.Fits.mono {m : Nat} (h : e.Fits m) (le : m ≤ n) : e.Fits n := ⟨h.1, h.2.trans le⟩

theorem Expr.IsOperand.mono {m : Nat} (h : e.IsOperand m) (le : m ≤ n) : e.IsOperand n :=
  ⟨h.fits.mono le, h.level, h.edge⟩

/-- What stands by itself is an operand. -/
theorem Expr.Fits.operand (h : e.Fits n) (level : e.level = 200) (edge : e.edge = 200) :
    e.IsOperand n :=
  ⟨h, by rw [level]; decide, by rw [edge]; decide⟩

theorem colOf_operand (h : startsFreely table = true) (name : String) :
    (Expr.colOf table name).IsOperand n :=
  Expr.Fits.operand ⟨colOf_readable h name, Nat.zero_le n⟩ rfl rfl

theorem col_operand (h : startsFreely name = true) : (Expr.col name).IsOperand n :=
  Expr.Fits.operand ⟨col_readable h, Nat.zero_le n⟩ rfl rfl

theorem literal_operand {value : Literal} (h : value.isReadable = true) :
    (Expr.literal value).IsOperand n :=
  Expr.Fits.operand ⟨h, Nat.zero_le n⟩ rfl rfl

theorem param_operand (h : Sql.Placeholder.isName name = true) : (Expr.param name).IsOperand n :=
  Expr.Fits.operand ⟨h, Nat.zero_le n⟩ rfl rfl

theorem interval_operand (text : String) : (Expr.interval text).IsOperand n :=
  Expr.Fits.operand ⟨rfl, Nat.zero_le n⟩ rfl rfl

theorem paren_operand (h : e.Fits n) : (Expr.paren e).IsOperand (n + 1) :=
  Expr.Fits.operand ⟨h.1, Nat.succ_le_succ h.2⟩ rfl rfl

theorem cast_operand {type : String} (h : e.Fits n) (named : Sql.Placeholder.isName type = true)
    (known : (castType? type).isSome = true) : (Expr.cast e type).IsOperand (n + 1) := by
  refine ⟨⟨?_, ?_⟩, (by decide : 140 ≤ 140), (by decide : 140 ≤ 200)⟩
  · simp only [Expr.isReadable, h.1, named, known, Bool.and_self]
  · have depth := h.2
    rw [Expr.depth]
    split <;> omega

theorem argumentsReadable_of {es : List Expr} (h : ∀ e ∈ es, e.isReadable = true) :
    argumentsReadable es = true := by
  induction es with
  | nil => rfl
  | cons e es ih =>
      obtain ⟨own, others⟩ := List.forall_mem_cons.mp h
      simp only [argumentsReadable, own, ih others, Bool.or_true, Bool.and_self]

theorem callOf_operand {es : List Expr} (h : ∀ e ∈ es, e.Fits n)
    (named : Sql.Placeholder.isName (Text.upper name) = true) (start : isCallStart name = true) :
    (Expr.callOf name es).IsOperand (n + 1) := by
  have arguments := argumentsReadable_of fun e he => (h e he).1
  refine Expr.Fits.operand ⟨?_, ?_⟩ rfl rfl
  · simp [Expr.callOf, Expr.isReadable, named, start, arguments]
  · exact Nat.succ_le_succ (exprsDepth_le.mpr fun e he => (h e he).2)

theorem binary_fits {op : BinaryOp} (he : e.IsOperand n) (hf : f.IsOperand n) :
    (Expr.binary e op f).Fits (n + 1) := by
  have bound : op.precedence < 140 := by cases op <;> decide
  constructor
  · simp only [Expr.isReadable, he.fits.1, hf.fits.1, Bool.true_and, Bool.and_eq_true,
      decide_eq_true_eq]
    exact ⟨bound.le.trans he.edge, bound.trans_le hf.level⟩
  · exact Nat.max_le.mpr ⟨he.fits.2.trans (Nat.le_succ n), Nat.succ_le_succ hf.fits.2⟩

/-! ### Clauses -/

/-- Whether a source is a table by a name that starts no construct. -/
def Source.IsFree (s : Source) : Prop := ∃ table, s = .ofName table ∧ startsFreely table = true

/-- Whether a join of a table by name can be read back within some levels. -/
structure Join.Fits (n : Nat) (j : Join) : Prop where
  source : j.source.IsFree
  condition : ∀ e ∈ j.condition, e.Fits n
  uncrossed : j.kind ≠ .cross ∨ j.condition = none

/-- Whether the clauses of a query over tables by name can be read back within some levels. -/
structure Query.Fits (n : Nat) (q : Query) : Prop where
  single : q.setOperation = none
  ungrouped : q.having = none
  ctes : ∀ c ∈ q.ctes, c.columns = none ∧ c.query.isReadable = true ∧ c.query.depth ≤ n ∧
    (nameToken c.name).keyword? ≠ some "RECURSIVE"
  nonempty : q.items ≠ []
  items : ∀ i ∈ q.items, i.expr.Fits n ∧ opener i.expr.tokens ≠ some "TOP"
  sources : ∀ f ∈ q.sources, f.source.IsFree ∧ ∀ j ∈ f.joins, j.Fits n
  condition : ∀ e ∈ q.condition, e.Fits n
  keys : ∀ e ∈ q.groupBy, e.Fits n ∧ ∀ k ∈ ["GROUPING", "CUBE", "ROLLUP"], opener e.tokens ≠ some k
  order : ∀ o ∈ q.orderBy, o.expr.Fits n
  rows : q.rows.all RowRange.isReadable = true

theorem Join.Fits.mono {m : Nat} {j : Join} (h : j.Fits m) (le : m ≤ n) : j.Fits n :=
  ⟨h.source, fun e he => (h.condition e he).mono le, h.uncrossed⟩

theorem Query.Fits.mono {m : Nat} (h : q.Fits m) (le : m ≤ n) : q.Fits n where
  single := h.single
  ungrouped := h.ungrouped
  ctes c hc :=
    have ⟨columns, readable, depth, plain⟩ := h.ctes c hc
    ⟨columns, readable, depth.trans le, plain⟩
  nonempty := h.nonempty
  items i hi := (h.items i hi).imp_left fun fits => fits.mono le
  sources f hf := (h.sources f hf).imp_right fun joins j hj => (joins j hj).mono le
  condition e he := (h.condition e he).mono le
  keys e he := (h.keys e he).imp_left fun fits => fits.mono le
  order o ho := (h.order o ho).mono le
  rows := h.rows

theorem source_fits {s : Source} (h : s.IsFree) : s.isReadable = true ∧ s.depth = 0 := by
  obtain ⟨table, rfl, free⟩ := h
  refine ⟨?_, rfl⟩
  have other := keyword_of_startsFreely free "UNNEST" (by decide)
  simpa [Source.ofName, TableRef.ofName, Source.isReadable, opener] using other

theorem joins_fit {joins : List Join} (h : ∀ j ∈ joins, j.Fits n) :
    joinsReadable joins = true ∧ joinsDepth joins ≤ n + 1 := by
  induction joins with
  | nil => exact ⟨rfl, Nat.zero_le _⟩
  | cons j joins ih =>
      obtain ⟨own, others⟩ := List.forall_mem_cons.mp h
      obtain ⟨readable, depth⟩ := ih others
      obtain ⟨kind, source, condition⟩ := j
      obtain ⟨named, level⟩ := source_fits own.source
      have on : optionReadable condition = true :=
        optionReadable_iff.mpr fun e he => (own.condition e he).1
      have inside : optionDepth condition ≤ n :=
        optionDepth_le.mpr fun e he => (own.condition e he).2
      have uncrossed : (kind != .cross || condition.isNone) = true := by
        rcases own.uncrossed with other | rfl
        · simp [show kind ≠ .cross from other]
        · simp
      constructor
      · simp only [joinsReadable, named, on, uncrossed, readable, Bool.and_self]
      · simp only [joinsDepth, level]
        omega

theorem sources_fit {sources : List FromItem}
    (h : ∀ f ∈ sources, f.source.IsFree ∧ ∀ j ∈ f.joins, j.Fits n) :
    sourcesReadable sources = true ∧ sourcesDepth sources ≤ n + 1 := by
  induction sources with
  | nil => exact ⟨rfl, Nat.zero_le _⟩
  | cons f sources ih =>
      obtain ⟨own, others⟩ := List.forall_mem_cons.mp h
      obtain ⟨readable, depth⟩ := ih others
      obtain ⟨source, joins⟩ := f
      obtain ⟨named, level⟩ := source_fits own.1
      obtain ⟨joined, inside⟩ : joinsReadable joins = true ∧ joinsDepth joins ≤ n + 1 :=
        joins_fit own.2
      constructor
      · simp only [sourcesReadable, named, joined, readable, Bool.and_self]
      · simp only [sourcesDepth, level]
        omega

theorem items_fit {items : List SelectItem}
    (h : ∀ i ∈ items, i.expr.Fits n ∧ opener i.expr.tokens ≠ some "TOP") :
    itemsReadable items = true ∧ opener (itemGroups items).flatten ≠ some "TOP" := by
  constructor
  · induction items with
    | nil => rfl
    | cons i items ih =>
        obtain ⟨own, others⟩ := List.forall_mem_cons.mp h
        obtain ⟨expr, label⟩ := i
        simp only [itemsReadable, show expr.isReadable = true from own.1.1, ih others, Bool.or_true,
          Bool.and_self]
  · rw [itemGroups_eq]
    refine opener_flatten (List.forall_mem_map.mpr fun i hi => ?_)
    obtain ⟨expr, label⟩ := i
    refine opener_append (h _ hi).2 ?_
    cases label with
    | none => exact (by decide : none ≠ some "TOP")
    | some label => exact (by decide : some "AS" ≠ some "TOP")

theorem keys_fit {es : List Expr}
    (h : ∀ e ∈ es, e.Fits n ∧ ∀ k ∈ ["GROUPING", "CUBE", "ROLLUP"], opener e.tokens ≠ some k) :
    keysReadable es = true := by
  induction es with
  | nil => rfl
  | cons e es ih =>
      obtain ⟨own, others⟩ := List.forall_mem_cons.mp h
      have plain : (opener e.tokens).any ["GROUPING", "CUBE", "ROLLUP"].contains = false := by
        rw [Option.any_eq_false]
        exact fun k hk => Bool.eq_false_iff.mpr fun found =>
          own.2 k (List.contains_iff_mem.mp found) hk
      simp only [keysReadable, own.1.1, plain, ih others, Bool.not_false, Bool.and_self]

theorem ctes_fit {ctes : List Cte} (h : ∀ c ∈ ctes, c.columns = none ∧ c.query.isReadable = true ∧
    c.query.depth ≤ n ∧ (nameToken c.name).keyword? ≠ some "RECURSIVE") :
    ctesReadable ctes = true ∧ opener (cteGroups ctes).flatten ≠ some "RECURSIVE" := by
  constructor
  · induction ctes with
    | nil => rfl
    | cons c ctes ih =>
        obtain ⟨own, others⟩ := List.forall_mem_cons.mp h
        obtain ⟨name, columns, query, recursive⟩ := c
        simp only [ctesReadable, show columns = none from own.1, own.2.1, ih others,
          Option.isNone_none, Bool.and_self]
  · rw [cteGroups_eq]
    refine opener_flatten (List.forall_mem_map.mpr fun c hc => ?_)
    obtain ⟨name, columns, query, recursive⟩ := c
    simpa [Cte.tokens, opener] using (h _ hc).2.2.2

/-- A query whose clauses can be read back can be read back. -/
theorem query_fits (h : q.Fits n) : q.isReadable = true ∧ q.depth ≤ n + 1 := by
  obtain ⟨items, top⟩ := items_fit h.items
  obtain ⟨sources, within⟩ := sources_fit h.sources
  obtain ⟨ctes, plain⟩ := ctes_fit h.ctes
  have some : q.items.isEmpty = false := List.isEmpty_eq_false_iff.mpr h.nonempty
  have condition := optionReadable_iff.mpr fun e he => (h.condition e he).1
  have orders := ordersReadable_iff.mpr fun o ho => (h.order o ho).1
  have having_ : optionReadable q.having = true := by
    rw [h.ungrouped]
    rfl
  constructor
  · have body : q.bodyReadable = true := by
      simp only [Query.bodyReadable, h.single, some, items, sources, condition, keys_fit h.keys,
        having_, Bool.not_false, Bool.and_true, Bool.true_and, bne_iff_ne, ne_eq]
      exact top
    simp only [Query.isReadable_eq, ctes, body, orders, h.rows, Bool.and_true, Bool.true_and,
      bne_iff_ne, ne_eq]
    exact plain
  · have defined := ctesDepth_le.mpr fun c hc => (h.ctes c hc).2.2.1
    have listed := itemsDepth_le.mpr fun i hi => (h.items i hi).1.2
    have filtered := optionDepth_le.mpr fun e he => (h.condition e he).2
    have grouped := exprsDepth_le.mpr fun e he => (h.keys e he).1.2
    have ordered := ordersDepth_le.mpr fun o ho => (h.order o ho).2
    simp only [Query.depth_eq, Query.bodyDepth, h.single, h.ungrouped, optionDepth]
    omega

end ReportSql.Tree
