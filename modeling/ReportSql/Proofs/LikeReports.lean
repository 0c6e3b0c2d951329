import ReportSql.Proofs.LikeTrees
import ReportSql.Report.Basic

/-!
The queries of reports, part by part. They are written in separate tokens if the expressions of
the catalog are whole, and queries of plans that differ in the columns and labels of their
dimensions are alike.
-/
namespace ReportSql.Tree

open Output (Whole whole_of_separate sqlText)

variable {e : Expr} {fs gs : List Expr} {R : List Output.Token → List Output.Token → Prop}

/-! ### Conditions that are joined -/

/-- A condition with one more. -/
def withFilter (condition : Option Expr) (f : Expr) : Option Expr :=
  some (match condition with
    | some e => e.and f
    | none => f)

/-- Some conditions as one, which is none if there are none. -/
def filterCondition (fs : List Expr) : Option Expr := fs.foldl withFilter none

theorem Query.filterAll_eq (q : Query) (fs : List Expr) :
    q.filterAll fs = { q with condition := fs.foldl withFilter q.condition } := by
  unfold Query.filterAll
  induction fs generalizing q with
  | nil => cases q; rfl
  | cons f fs ih => rw [List.foldl_cons, ih]; rfl

theorem stands_filterCondition (h : ∀ f ∈ fs, Stands AtBlank f.tokens) :
    ∀ e ∈ filterCondition fs, Stands AtBlank e.tokens := by
  have onto : ∀ condition : Option Expr, (∀ e ∈ condition, Stands AtBlank e.tokens) →
      ∀ e ∈ fs.foldl withFilter condition, Stands AtBlank e.tokens := by
    induction fs with
    | nil => exact fun _ known => known
    | cons f fs ih =>
        obtain ⟨own, others⟩ := List.forall_mem_cons.mp h
        intro condition known
        refine ih others _ ?_
        rintro _ ⟨⟩
        cases condition with
        | none => exact own
        | some e => exact (known e rfl).binary own
  exact onto none nofun

theorem Likeness.filterCondition (h : Likeness R)
    (same : List.Forall₂ (fun f g : Expr => R f.tokens g.tokens) fs gs) :
    R (whereTokens (filterCondition fs)) (whereTokens (filterCondition gs)) := by
  have both : Option.Rel (fun f g : Expr => R f.tokens g.tokens)
      (Tree.filterCondition fs) (Tree.filterCondition gs) := by
    refine List.rel_foldl (fun c d known f g own => ?_) Option.Rel.none same
    cases known with
    | none => exact .some own
    | some known => exact .some (h.binary .and known own)
  generalize Tree.filterCondition fs = c, Tree.filterCondition gs = d at both
  cases both with
  | none => exact h.refl []
  | some own => exact h.append (h.refl _) own

/-! ### Sealed expressions -/

/-- An expression as the SQL that it is written in. -/
def Expr.sealed (e : Expr) : Expr := .raw e.sql

theorem text_sealed (e : Expr) : sqlText e.tokens = sqlText e.sealed.tokens := by
  simp [sqlText, Expr.sealed, Expr.tokens, Expr.sql, Output.Token.render]

theorem stands_sealed (h : Whole e.sql) : Stands AtBlank e.sealed.tokens := stands_raw h

theorem whole_of_stands (h : Stands AtBlank e.tokens) : Whole e.sql :=
  whole_of_separate h.separate

theorem text_sealed_all (fs : List Expr) :
    List.Forall₂ (fun f g : Expr => sqlText f.tokens = sqlText g.tokens) fs
      (fs.map Expr.sealed) :=
  List.forall₂_map_right_iff.mpr (List.forall₂_same.mpr fun f _ => text_sealed f)

theorem stands_sealed_all (h : ∀ f ∈ fs, Whole f.sql) :
    ∀ f ∈ fs.map Expr.sealed, Stands AtBlank f.tokens :=
  List.forall_mem_map.mpr fun f hf => stands_sealed (h f hf)

end ReportSql.Tree

namespace ReportSql.Report

open Catalog (Metric Schema)
open Output (Token Twin Whole sqlText)
open ReportSql.Tree (AtBlank AtBreak Expr Likeness Query Stands filterCondition)
open Sql.Placeholder (isName)

variable {R : List Token → List Token → Prop} {plan : Plan} {ds : List Dimension}
  {d e : Dimension} {date value other : Expr} {fs gs : List Expr} {base name : String}

/-! ### Dimensions -/

/-- Whether two dimensions are of one table and have names that are alike. -/
structure DimensionsAlike (R : List Token → List Token → Prop) (d e : Dimension) : Prop where
  table : d.table = e.table
  column : R [.ident d.column] [.ident e.column]
  outputName : R [.ident d.outputName] [.ident e.outputName]

theorem dimensionsAlike_refl (h : Likeness R) (d : Dimension) : DimensionsAlike R d d :=
  ⟨rfl, h.refl _, h.refl _⟩

theorem dimensionsAlike_twins (h : d.table = e.table) :
    DimensionsAlike (List.Forall₂ Twin) d e :=
  ⟨h, .cons (.names _ _) .nil, .cons (.names _ _) .nil⟩

theorem stands_colOf (table column : String) : Stands AtBreak (Expr.colOf table column).tokens :=
  Stands.column (some table)

theorem colOf_like (h : Likeness R) (table : String) {column key : String}
    (names : R [.ident column] [.ident key]) :
    R (Expr.colOf table column).tokens (Expr.colOf table key).tokens :=
  h.append (h.refl [.ident table, .mark .dot]) names

theorem stands_callOn {next : List Token → Prop} (hn : isName (Text.upper name) = true)
    (he : Stands AtBreak value.tokens) : Stands next (Expr.callOf name [value]).tokens :=
  Stands.call hn (List.forall_mem_singleton.mpr he)

theorem stands_truncate {next : List Token → Prop} (unit : String)
    (hd : Stands AtBreak date.tokens) : Stands next (Expr.truncate unit date).tokens :=
  have name : Stands AtBreak (Expr.text unit).tokens := Tree.stands_token rfl rfl
  Stands.call (by decide) (List.forall_mem_cons.mpr ⟨name, List.forall_mem_singleton.mpr hd⟩)

/-! ### Conditions of the catalog -/

theorem stands_scoping {table : Catalog.Table} {tenant : String}
    (hn : isName tenant = true) (he : table.scoping? (.param tenant) = some value) :
    Stands AtBlank value.tokens := by
  obtain ⟨column, -, rfl⟩ := Option.map_eq_some_iff.mp he
  have own : Stands AtBlank (Expr.colOf table.name column).lower.tokens :=
    stands_callOn (by decide) (stands_colOf table.name column)
  have param : Stands AtBreak (Expr.param tenant).tokens := Tree.stands_token rfl hn
  have given : Stands AtBlank (Expr.param tenant).lower.tokens :=
    stands_callOn (by decide) param
  exact own.binary given

theorem stands_completed (state : Catalog.CompletedState) (qualifier : String) :
    Stands AtBlank (state.predicate qualifier).tokens :=
  (stands_colOf qualifier state.column).before_blank.binary
    (Tree.stands_token (t := .text state.value) rfl rfl).before_blank

theorem stands_cancellation {table : Catalog.Table} :
    ∀ f ∈ table.cancellation?, Stands AtBlank f.tokens := by
  intro f hf
  obtain ⟨column, -, rfl⟩ := Option.map_eq_some_iff.mp hf
  exact (stands_colOf table.name column).before_blank.isTruth.before_blank

namespace Standard

/-! ### The conditions of a plan -/

theorem stands_dateParam (hn : isName name = true) :
    Stands AtBreak (dateParam name).tokens :=
  Stands.cast (Tree.stands_token rfl hn) (by decide)

theorem stands_dayAfter (hn : isName name = true) :
    Stands AtBreak (dayAfter name).tokens :=
  ((stands_dateParam hn).before_blank.binary (Stands.interval "1 day")).paren

theorem stands_rangeFilters (hd : Stands AtBreak date.tokens) (range : Option DateRange) :
    ∀ f ∈ rangeFilters date range, Stands AtBlank f.tokens := by
  have start : Stands AtBreak (date.ge (dateParam "start_date")).tokens :=
    hd.before_blank.binary (stands_dateParam (by decide))
  have stop : Stands AtBreak (date.lt (dayAfter "end_date")).tokens :=
    hd.before_blank.binary (stands_dayAfter (by decide))
  cases range with
  | none => exact nofun
  | some r =>
      intro f hf
      simp only [rangeFilters, List.mem_append, List.mem_ite_nil_right, List.mem_singleton] at hf
      rcases hf with ⟨-, rfl⟩ | ⟨-, rfl⟩
      · exact start.before_blank
      · exact stop.before_blank

theorem stands_between (hd : Stands AtBreak date.tokens) {start stop : String}
    (hs : isName start = true) (he : isName stop = true) :
    Stands AtBreak (between date start stop).tokens := by
  have low : Stands AtBreak (date.ge (dateParam start)).tokens :=
    hd.before_blank.binary (stands_dateParam hs)
  have high : Stands AtBreak (date.lt (dayAfter stop)).tokens :=
    hd.before_blank.binary (stands_dayAfter he)
  exact (low.before_blank.binary high).paren

/-- Whether a period is one of two that parameters name. -/
theorem stands_eitherParam {next : List Token → Prop} {first second : String}
    (hv : Stands AtBlank value.tokens) (hf : isName first = true) (hs : isName second = true) :
    Stands next (value.isOneOf [dateParam first, dateParam second]).tokens :=
  hv.inList (List.cons_ne_nil _ _) (List.forall_mem_cons.mpr
    ⟨stands_dateParam hf, List.forall_mem_singleton.mpr (stands_dateParam hs)⟩)

theorem stands_comparisonFilter (hd : Stands AtBreak date.tokens) (grain : Option Grain)
    (ownEnds : Bool) : Stands AtBlank (comparisonFilter date grain ownEnds).tokens := by
  unfold comparisonFilter
  split
  · exact stands_eitherParam (stands_callOn (by decide) hd) (by decide) (by decide)
  · next unit _ =>
    have whole : Stands AtBlank ((Expr.truncate unit date).isOneOf
        [dateParam "cmp_start_1", dateParam "cmp_start_2"]).tokens :=
      stands_eitherParam (stands_truncate unit hd) (by decide) (by decide)
    have first : Stands AtBreak (between date "cmp_start_1" "cmp_end_1").tokens :=
      stands_between hd (by decide) (by decide)
    have second : Stands AtBreak (between date "cmp_start_2" "cmp_end_2").tokens :=
      stands_between hd (by decide) (by decide)
    split
    · exact whole.binary (first.before_blank.binary second).paren
    · exact whole

theorem stands_comparisonFilters (hd : Stands AtBreak date.tokens) :
    ∀ f ∈ comparisonFilters plan date, Stands AtBlank f.tokens := by
  unfold comparisonFilters
  split
  · simpa using stands_comparisonFilter hd plan.grain (hasOwnEnds plan)
  · simp

theorem stands_completedFilters (schema : Schema) (joined : List String) :
    ∀ f ∈ completedFilters schema joined, Stands AtBlank f.tokens := by
  unfold completedFilters
  split
  · next state _ =>
    split
    · simpa using stands_completed state state.table
    · simp
  · simp

/-! ### The query of a plan -/

/-- The query of a plan with the joins, the conditions and the value that the catalog gives. -/
def assembled (plan : Plan) (base : String) (joins : List Join.Step) (date : Expr)
    (filters : List Expr) (value : Expr) : Query :=
  { Query.empty with
    items := (keys plan date).map (fun (e, name) => e.as name) ++ [value.as valueName]
    sources := [⟨.ofName base, joins.map Join.Step.join⟩]
    condition := filterCondition filters
    groupBy := (keys plan date).map Prod.fst
    orderBy := orderItems plan
    rows := plan.effectiveLimit.map fun n => ⟨some n, none⟩ }

variable {joins : List Join.Step}

theorem assembled_eq : assembled plan base joins date fs value =
    let q := Query.filterAll { Query.empty with
      items := (keys plan date).map (fun (e, name) => e.as name) ++ [value.as valueName]
      sources := [⟨.ofName base, joins.map Join.Step.join⟩]
      groupBy := (keys plan date).map Prod.fst
      orderBy := orderItems plan } fs
    match plan.effectiveLimit with
    | some n => q.withLimit n
    | none => q := by
  simp only [Query.filterAll_eq]
  unfold assembled
  cases plan.effectiveLimit <;> rfl

theorem assembled_isPlain : (assembled plan base joins date fs value).IsPlain :=
  ⟨rfl, rfl, rfl, nofun⟩

theorem stands_keys (hd : Stands AtBreak date.tokens) :
    ∀ k ∈ keys plan date, Stands AtBreak k.1.tokens := by
  intro k hk
  rcases List.mem_append.mp hk with period | dimension
  · obtain ⟨grain, -, rfl⟩ := Option.map_eq_some_iff.mp (Option.mem_toList.mp period)
    exact stands_truncate grain.unit hd
  · obtain ⟨d, -, rfl⟩ := List.mem_map.mp dimension
    exact stands_colOf d.table d.column

theorem stands_orderItems : ∀ o ∈ orderItems plan, Stands AtBreak o.tokens := by
  have column : ∀ name, Stands AtBreak (Expr.col name).tokens := fun _ => Stands.column none
  intro o ho
  refine Stands.orderItem ?_
  unfold orderItems at ho
  split at ho
  · obtain rfl := List.mem_singleton.mp ho
    exact column periodName
  · split at ho
    · obtain rfl := List.mem_singleton.mp ho
      exact column valueName
    · cases ho

theorem stands_assembled (hd : Stands AtBreak date.tokens)
    (hj : ∀ s ∈ joins, Stands AtBreak s.condition.tokens)
    (hf : ∀ f ∈ fs, Stands AtBlank f.tokens) (hv : Stands AtBlank value.tokens) :
    Stands AtBlank (assembled plan base joins date fs value).tokens := by
  refine Stands.query assembled_isPlain nofun ?_ ?_ (Tree.stands_filterCondition hf) ?_
    stands_orderItems
  · intro i hi
    rcases List.mem_append.mp hi with key | own
    · obtain ⟨k, hk, rfl⟩ := List.mem_map.mp key
      exact (stands_keys hd k hk).before_blank.as k.2
    · obtain rfl := List.mem_singleton.mp own
      exact hv.as valueName
  · intro f hf
    obtain rfl := List.mem_singleton.mp hf
    refine Stands.fromItem rfl (List.forall_mem_map.mpr fun s hs => Stands.join rfl ?_)
    rintro _ ⟨⟩
    exact hj s hs
  · exact List.forall_mem_map.mpr (stands_keys hd)

theorem keys_like (h : Likeness R) (date : Expr)
    (dims : List.Forall₂ (DimensionsAlike R) plan.dimensions ds) :
    List.Forall₂
      (fun k l : Expr × String => R k.1.tokens l.1.tokens ∧ R [.ident k.2] [.ident l.2])
      (keys plan date) (keys { plan with dimensions := ds } date) := by
  refine List.rel_append (List.forall₂_same.mpr fun k _ => ⟨h.refl _, h.refl _⟩) ?_
  refine List.forall₂_map_left_iff.mpr (List.forall₂_map_right_iff.mpr (dims.imp ?_))
  rintro d e ⟨table, column, outputName⟩
  rw [table]
  exact ⟨colOf_like h e.table column, outputName⟩

/-- Queries of alike dimensions, conditions and values are alike. -/
theorem assembled_like (h : Likeness R)
    (dims : List.Forall₂ (DimensionsAlike R) plan.dimensions ds)
    (filters : List.Forall₂ (fun f g : Expr => R f.tokens g.tokens) fs gs)
    (values : R value.tokens other.tokens) :
    R (assembled plan base joins date fs value).tokens
      (assembled { plan with dimensions := ds } base joins date gs other).tokens := by
  have keys := keys_like h date dims
  refine h.query assembled_isPlain assembled_isPlain .nil ?_ ?_ (h.filterCondition filters) ?_
    rfl rfl
  · simp only [assembled, List.map_append, List.map_map]
    refine List.rel_append ?_ (.cons (h.as values (h.refl _)) .nil)
    refine List.forall₂_map_left_iff.mpr (List.forall₂_map_right_iff.mpr (keys.imp ?_))
    exact fun k l both => h.as both.1 both.2
  · exact List.forall₂_same.mpr fun _ _ => h.refl _
  · simp only [assembled, List.map_map]
    refine List.forall₂_map_left_iff.mpr (List.forall₂_map_right_iff.mpr (keys.imp ?_))
    exact fun k l both => both.1

end Standard

/-! ### The query of a trend -/

namespace Trend

variable {p : Parts} {order : Tree.OrderItem} {limit : UInt64}

theorem stands_weekStart : Stands AtBreak weekStart.tokens := stands_colOf boundsName weekStartName

theorem stands_weeksBefore (weeks : Nat) : Stands AtBreak (weeksBefore weeks).tokens :=
  (stands_weekStart.before_blank.binary (Stands.interval _)).paren

theorem stands_bounds : Stands AtBlank bounds.tokens := by
  have now : Stands AtBreak (Expr.callOf "NOW" []).tokens := Stands.call (by decide) nofun
  have start : Stands AtBreak
      (Expr.cast (.truncate "week" (.callOf "NOW" [])) "timestamp").tokens :=
    Stands.cast (stands_truncate "week" now) (by decide)
  refine Stands.query ⟨rfl, rfl, rfl, nofun⟩ nofun ?_ nofun nofun nofun nofun
  simpa [bounds, Query.ofItems] using start.before_blank.as weekStartName

theorem stands_join (kind : Tree.JoinKind) (table : String) {condition : Option Expr}
    (hc : ∀ e ∈ condition, Stands AtBreak e.tokens) :
    Stands AtBreak (Tree.Join.tokens ⟨kind, .ofName table, condition⟩) :=
  Stands.join rfl hc

theorem stands_boundsJoin :
    Stands AtBreak (Tree.Join.tokens ⟨.cross, .ofName boundsName, none⟩) :=
  stands_join .cross boundsName nofun

theorem stands_source {table : String} {joins : List Tree.Join}
    (hj : ∀ j ∈ joins, Stands AtBreak j.tokens) :
    Stands AtBreak (Tree.FromItem.tokens ⟨.ofName table, joins⟩) :=
  Stands.fromItem rfl hj

theorem stands_columnItem (name : String) : Stands AtBreak (Expr.col name).item.tokens :=
  Stands.item (Stands.column none)

/-! The query by each name, clause by clause. -/

theorem window_eq (p : Parts) : p.window = { Query.empty with
    items := [(Expr.colOf p.anchor.name p.anchorKey).item,
      (Expr.colOf p.anchor.name p.dateColumn).item]
    sources := [⟨.ofName p.anchor.name, [⟨.cross, .ofName boundsName, none⟩]⟩]
    condition := filterCondition (p.scoping :: p.completed.toList ++ [
      (Expr.colOf p.anchor.name p.dateColumn).ge (weeksBefore (p.recentWeeks + p.priorWeeks)),
      (Expr.colOf p.anchor.name p.dateColumn).lt weekStart]) } :=
  Query.filterAll_eq _ _

theorem totals_eq (p : Parts) : p.totals = { Query.empty with
    items := [
      (Expr.colOf p.line.name p.groupKey).as p.groupKey,
      (p.revenueWhere ((Expr.colOf windowName p.dateColumn).ge (weeksBefore p.recentWeeks))).as
        "recent_rev",
      (p.revenueWhere ((Expr.colOf windowName p.dateColumn).lt (weeksBefore p.recentWeeks))).as
        "prior_rev"]
    sources := [⟨.ofName windowName, [
      ⟨.inner, .ofName p.line.name,
        some ((Expr.colOf p.line.name p.lineKey).eq (.colOf windowName p.anchorKey))⟩,
      ⟨.cross, .ofName boundsName, none⟩]⟩]
    condition := filterCondition p.lineFilters
    groupBy := [Expr.colOf p.line.name p.groupKey] } :=
  congrArg (Query.withGroups · _) (Query.filterAll_eq _ _)

/-- The join of the table of the dimension, unless the line items have the dimension. -/
def dimensionJoin (p : Parts) : Option Tree.Join :=
  p.dimensionKey.map fun key =>
    ⟨.left, .ofName p.dimension.table,
      some ((Expr.colOf p.dimension.table key).eq (.colOf rankedName p.groupKey))⟩

theorem query_eq (p : Parts) (order : Tree.OrderItem) (limit : UInt64) :
    p.query order limit = { Query.empty with
      ctes := [.ofQuery boundsName bounds, .ofQuery windowName p.window,
        .ofQuery totalsName p.totals, .ofQuery rankedName p.ranked]
      items := [p.label.as p.dimension.outputName, (Expr.col "recent_rev").item,
        (Expr.col "prior_rev").item, (Expr.col "delta").item, (Expr.col "pct_change").item]
      sources := [⟨.ofName rankedName, (dimensionJoin p).toList⟩]
      orderBy := [order]
      rows := some ⟨some limit, none⟩ } := by
  unfold Parts.query dimensionJoin
  cases p.dimensionKey <;> rfl

/-! ### Their tokens -/

/-- What the parts of a trend are like that the catalog gives. -/
structure Parts.Stand (p : Parts) : Prop where
  scoping : Stands AtBlank p.scoping.tokens
  completed : ∀ f ∈ p.completed, Stands AtBlank f.tokens
  revenue : Stands AtBlank p.revenue.tokens
  lineFilters : ∀ f ∈ p.lineFilters, Stands AtBlank f.tokens

theorem stands_window (h : p.Stand) : Stands AtBlank p.window.tokens := by
  have date := (stands_colOf p.anchor.name p.dateColumn).before_blank
  have start : Stands AtBlank ((Expr.colOf p.anchor.name p.dateColumn).ge
      (weeksBefore (p.recentWeeks + p.priorWeeks))).tokens :=
    date.binary (stands_weeksBefore _).before_blank
  have stop : Stands AtBlank ((Expr.colOf p.anchor.name p.dateColumn).lt weekStart).tokens :=
    date.binary stands_weekStart.before_blank
  rw [window_eq]
  refine Stands.query ⟨rfl, rfl, rfl, nofun⟩ nofun ?_ ?_ (Tree.stands_filterCondition ?_) nofun
    nofun
  · simp only [List.mem_cons, List.not_mem_nil, or_false, forall_eq_or_imp, forall_eq]
    exact ⟨Stands.item (stands_colOf _ _), Stands.item (stands_colOf _ _)⟩
  · simp only [List.mem_singleton, forall_eq]
    refine stands_source ?_
    simpa using stands_boundsJoin
  · simp only [List.cons_append, List.mem_cons, List.mem_append, Option.mem_toList,
      List.not_mem_nil, or_false]
    rintro f (rfl | own | rfl | rfl)
    · exact h.scoping
    · exact h.completed f own
    · exact start
    · exact stop

theorem stands_revenueWhere {condition : Expr} (h : p.Stand)
    (hc : Stands AtBlank condition.tokens) : Stands AtBlank (p.revenueWhere condition).tokens := by
  have zero : Stands AtBlank (Expr.int 0).tokens := (Tree.stands_int 0).before_blank
  have counted : Stands AtBreak (Expr.ifElse condition p.revenue (.int 0)).tokens :=
    Stands.ifElse hc h.revenue zero
  exact stands_callOn (by decide) counted

theorem stands_totals (h : p.Stand) : Stands AtBlank p.totals.tokens := by
  have date := (stands_colOf windowName p.dateColumn).before_blank
  have group := stands_colOf p.line.name p.groupKey
  have recent := (stands_weeksBefore p.recentWeeks).before_blank
  have matched : Stands AtBreak
      ((Expr.colOf p.line.name p.lineKey).eq (.colOf windowName p.anchorKey)).tokens :=
    (stands_colOf _ _).before_blank.binary (stands_colOf _ _)
  rw [totals_eq]
  refine Stands.query ⟨rfl, rfl, rfl, nofun⟩ nofun ?_ ?_ (Tree.stands_filterCondition h.lineFilters)
    ?_ nofun
  · simp only [List.mem_cons, List.not_mem_nil, or_false, forall_eq_or_imp, forall_eq]
    exact ⟨group.before_blank.as _, (stands_revenueWhere h (date.binary recent)).as _,
      (stands_revenueWhere h (date.binary recent)).as _⟩
  · simp only [List.mem_singleton, forall_eq]
    refine stands_source ?_
    simp only [List.mem_cons, List.not_mem_nil, or_false, forall_eq_or_imp, forall_eq]
    refine ⟨stands_join .inner p.line.name ?_, stands_boundsJoin⟩
    rintro _ ⟨⟩
    exact matched
  · simpa using group

theorem stands_ranked (p : Parts) : Stands AtBlank p.ranked.tokens := by
  have column : ∀ name, Stands AtBreak (Expr.col name).tokens := fun _ => Stands.column none
  have delta : Stands AtBreak ((Expr.col "recent_rev").sub (Expr.col "prior_rev")).tokens :=
    (column _).before_blank.binary (column _)
  have none : Stands AtBlank ((Expr.col "prior_rev").eq (.int 0)).tokens :=
    (column _).before_blank.binary (Tree.stands_int 0).before_blank
  have share : Stands AtBlank ((Expr.paren ((Expr.col "recent_rev").sub
      (Expr.col "prior_rev"))).div (Expr.col "prior_rev")).tokens :=
    Stands.binary (Stands.paren delta) (column _).before_blank
  have null : Stands AtBlank Expr.null.tokens :=
    (Tree.stands_token (t := .mark .null) rfl rfl).before_blank
  refine Stands.query ⟨rfl, rfl, rfl, nofun⟩ nofun ?_ ?_ nofun nofun nofun
  · simp only [Parts.ranked, Query.ofItems, Query.addSource, List.mem_cons, List.not_mem_nil,
      or_false, forall_eq_or_imp, forall_eq]
    exact ⟨stands_columnItem _, stands_columnItem _, stands_columnItem _,
      delta.before_blank.as _, (Stands.ifElse none null share).before_blank.as _⟩
  · rintro f ⟨⟩
    · exact stands_source nofun
    · contradiction

theorem stands_query (h : p.Stand) (ho : Stands AtBreak order.tokens) :
    Stands AtBlank (p.query order limit).tokens := by
  have label : Stands AtBreak p.label.tokens := by
    unfold Parts.label
    split <;> exact stands_colOf _ _
  rw [query_eq]
  refine Stands.query ⟨rfl, rfl, rfl, ?_⟩ ?_ ?_ ?_ nofun nofun ?_
  · simp [Tree.Cte.ofQuery]
  · simp only [List.mem_cons, List.not_mem_nil, or_false, forall_eq_or_imp, forall_eq]
    exact ⟨Stands.cte rfl stands_bounds, Stands.cte rfl (stands_window h),
      Stands.cte rfl (stands_totals h), Stands.cte rfl (stands_ranked p)⟩
  · simp only [List.mem_cons, List.not_mem_nil, or_false, forall_eq_or_imp, forall_eq]
    exact ⟨label.before_blank.as _, stands_columnItem _, stands_columnItem _, stands_columnItem _,
      stands_columnItem _⟩
  · simp only [List.mem_singleton, forall_eq]
    refine stands_source fun j hj => ?_
    obtain ⟨key, -, rfl⟩ := Option.map_eq_some_iff.mp (Option.mem_toList.mp hj)
    refine stands_join .left p.dimension.table ?_
    rintro _ ⟨⟩
    exact (stands_colOf _ _).before_blank.binary (stands_colOf _ _)
  · simpa using ho

/-! ### Alike trends -/

/-- The parts of a trend with another dimension, other revenue and other conditions. -/
def Parts.changed (p : Parts) (dimension : Dimension) (groupKey : String) (revenue : Expr)
    (lineFilters : List Expr) : Parts :=
  { p with dimension, groupKey, revenue, lineFilters }

variable {group : String}

theorem revenueWhere_like (h : Likeness R) (condition : Expr)
    (revenue : R p.revenue.tokens value.tokens) :
    R (p.revenueWhere condition).tokens
      ((p.changed d group value fs).revenueWhere condition).tokens :=
  h.sum (h.ifElse _ _ revenue)

theorem totals_like (h : Likeness R) (groups : R [.ident p.groupKey] [.ident group])
    (revenue : R p.revenue.tokens value.tokens)
    (filters : List.Forall₂ (fun f g : Expr => R f.tokens g.tokens) p.lineFilters fs) :
    R p.totals.tokens (p.changed d group value fs).totals.tokens := by
  have key := colOf_like h p.line.name groups
  rw [totals_eq, totals_eq]
  refine h.query ⟨rfl, rfl, rfl, nofun⟩ ⟨rfl, rfl, rfl, nofun⟩ .nil ?_ ?_
    (h.filterCondition filters) (.cons key .nil) rfl rfl
  · exact .cons (h.as key groups) (.cons (h.as (revenueWhere_like h _ revenue) (h.refl _))
      (.cons (h.as (revenueWhere_like h _ revenue) (h.refl _)) .nil))
  · exact List.forall₂_same.mpr fun _ _ => h.refl _

theorem ranked_like (h : Likeness R) (groups : R [.ident p.groupKey] [.ident group]) :
    R p.ranked.tokens (p.changed d group value fs).ranked.tokens := by
  refine h.query ⟨rfl, rfl, rfl, nofun⟩ ⟨rfl, rfl, rfl, nofun⟩ .nil ?_ ?_ (h.refl _) .nil rfl rfl
  · exact .cons (h.item groups) (List.forall₂_same.mpr fun _ _ => h.refl _)
  · exact List.forall₂_same.mpr fun _ _ => h.refl _

theorem label_like (h : Likeness R) (dims : DimensionsAlike R p.dimension d)
    (groups : R [.ident p.groupKey] [.ident group]) :
    R p.label.tokens (p.changed d group value fs).label.tokens := by
  unfold Parts.label
  rw [show (p.changed d group value fs).dimensionKey = p.dimensionKey from rfl]
  split
  · rw [dims.table]
    exact colOf_like h d.table dims.column
  · exact colOf_like h rankedName groups

theorem dimensionJoin_like (h : Likeness R) (dims : DimensionsAlike R p.dimension d)
    (groups : R [.ident p.groupKey] [.ident group]) :
    List.Forall₂ (fun i j : Tree.Join => R i.tokens j.tokens) (dimensionJoin p).toList
      (dimensionJoin (p.changed d group value fs)).toList := by
  unfold dimensionJoin
  rw [show (p.changed d group value fs).dimensionKey = p.dimensionKey from rfl]
  cases p.dimensionKey with
  | none => exact .nil
  | some key =>
      rw [dims.table]
      refine .cons ?_ .nil
      exact h.append (h.refl _) (h.append (h.refl _) (h.binary .eq (h.refl _)
        (colOf_like h rankedName groups)))

/-- Trends of an alike dimension, alike revenue and alike conditions are alike. -/
theorem query_like (h : Likeness R) (dims : DimensionsAlike R p.dimension d)
    (groups : R [.ident p.groupKey] [.ident group])
    (revenue : R p.revenue.tokens value.tokens)
    (filters : List.Forall₂ (fun f g : Expr => R f.tokens g.tokens) p.lineFilters fs) :
    R (p.query order limit).tokens ((p.changed d group value fs).query order limit).tokens := by
  rw [query_eq, query_eq]
  refine h.query ⟨rfl, rfl, rfl, by simp [Tree.Cte.ofQuery]⟩
    ⟨rfl, rfl, rfl, by simp [Tree.Cte.ofQuery]⟩ ?_ ?_ ?_ (h.refl _) .nil rfl rfl
  · exact .cons (h.refl _) (.cons (h.refl _) (.cons (h.cte totalsName (totals_like h groups revenue
      filters)) (.cons (h.cte rankedName (ranked_like h groups)) .nil)))
  · exact .cons (h.as (label_like h dims groups) dims.outputName)
      (List.forall₂_same.mpr fun _ _ => h.refl _)
  · exact .cons (h.fromItem (.ofName rankedName) (dimensionJoin_like h dims groups)) .nil

end Trend

end ReportSql.Report
