import ReportSql.Proofs.BoundValues
import ReportSql.Proofs.ShownPlaceholders

/-!
The placeholders of reports. A report shows the tenant and the dates of its plan by the names that
they are bound by, and what the catalog shows in the expressions of the metric. All of them have
values where the catalog shows no others, and the tenant has its own value unless a date is bound
by the same name.
-/
namespace ReportSql.Catalog

/-- Whether all placeholders that reports show of a metric have one of some names. -/
def ShowsOnly (catalog : Catalog) (key : String) (known : List String) : Prop :=
  ∀ m ∈ catalog.metrics, m.key = key →
    ∀ e ∈ m.printed, ∀ n ∈ Sql.Placeholder.names e.sql, n ∈ known

end ReportSql.Catalog

namespace ReportSql.Report

open Catalog (Metric Schema Table)
open Output (Shows)
open ReportSql.Tree (AtBlank AtBreak Expr Query Stands mem_names)
open Sql.Placeholder (isName names)

variable {n tenantParam : String} {plan : Plan} {metric : Metric} {schema : Schema}
  {catalog : Catalog} {options : Options} {report : Report} {table : Table} {date scoping : Expr}

/-! ### Conditions -/

theorem shows_colOf (table column : String) : ¬ Shows n (Expr.colOf table column).tokens :=
  Tree.shows_column (some table)

theorem shows_col (name : String) : ¬ Shows n (Expr.col name).tokens := Tree.shows_column none

theorem shows_scoping (h : table.scoping? (.param tenantParam) = some scoping) :
    Shows n scoping.tokens ↔ n = tenantParam := by
  obtain ⟨column, -, rfl⟩ := Option.map_eq_some_iff.mp h
  simp [Expr.eq, Expr.lower, Expr.callOf, shows_colOf]

theorem shows_completed (state : Catalog.CompletedState) (qualifier : String) :
    ¬ Shows n (state.predicate qualifier).tokens := by
  simp [Catalog.CompletedState.predicate, Expr.eq, Expr.text, shows_colOf]

theorem names_cancellation : ¬ ∃ f, table.cancellation? = some f ∧ n ∈ names f.sql := by
  rintro ⟨f, hf, shown⟩
  rw [mem_names (stands_cancellation f hf)] at shown
  obtain ⟨column, -, rfl⟩ := Option.map_eq_some_iff.mp hf
  simp [Expr.isNotTrue, shows_colOf] at shown

namespace Standard

theorem shows_dateParam (name : String) : Shows n (dateParam name).tokens ↔ n = name := by
  simp [dateParam]

theorem shows_dayAfter (name : String) : Shows n (dayAfter name).tokens ↔ n = name := by
  simp [dayAfter, Expr.add, shows_dateParam]

theorem shows_rangeFilters (hd : ¬ Shows n date.tokens) (range : Option DateRange) :
    (∃ f ∈ rangeFilters date range, Shows n f.tokens) ↔ n ∈ rangeNames range := by
  match range with
  | none | some ⟨none, none⟩ | some ⟨none, some _⟩ | some ⟨some _, none⟩
  | some ⟨some _, some _⟩ =>
      simp [rangeFilters, rangeNames, Expr.ge, Expr.lt, shows_dateParam, shows_dayAfter, hd]

theorem shows_between (hd : ¬ Shows n date.tokens) (start stop : String) :
    Shows n (between date start stop).tokens ↔ n = start ∨ n = stop := by
  simp [between, Expr.and, Expr.ge, Expr.lt, shows_dateParam, shows_dayAfter, hd]

theorem shows_eitherSpan (hd : ¬ Shows n date.tokens) : Shows n (eitherSpan date).tokens ↔
    (n = "cmp_start_1" ∨ n = "cmp_end_1") ∨ n = "cmp_start_2" ∨ n = "cmp_end_2" := by
  simp [eitherSpan, Expr.or, shows_between hd]

theorem shows_eitherParam {value : Expr} (hv : ¬ Shows n value.tokens) (first second : String) :
    Shows n (value.isOneOf [dateParam first, dateParam second]).tokens ↔
      n = first ∨ n = second := by
  simp [Expr.isOneOf, Tree.shows_inList, shows_dateParam, hv]

theorem shows_truncate (hd : ¬ Shows n date.tokens) (unit : String) :
    ¬ Shows n (Expr.truncate unit date).tokens := by
  simp [Expr.truncate, Expr.callOf, Expr.text, hd]

theorem shows_comparisonFilters (hd : ¬ Shows n date.tokens) :
    (∃ f ∈ comparisonFilters plan date, Shows n f.tokens) ↔ n ∈ comparisonNames plan := by
  unfold comparisonFilters comparisonNames
  split
  · unfold comparisonFilter
    cases comparedUnit? plan.grain with
    | none =>
        have day : ¬ Shows n (Expr.callOf "DATE" [date]).tokens := by simp [Expr.callOf, hd]
        simp [shows_eitherParam day]
    | some unit =>
        have start := shows_eitherParam (shows_truncate hd unit) "cmp_start_1" "cmp_start_2"
        cases hasOwnEnds plan with
        | false => simp [start]
        | true =>
            simp only [if_true, List.mem_singleton, exists_eq_left, Expr.and, Tree.shows_binary,
              start, shows_eitherSpan hd, List.mem_append, List.mem_pair]
            tauto
  · simp

theorem shows_completedFilters (joined : List String) :
    ∀ f ∈ completedFilters schema joined, ¬ Shows n f.tokens := by
  intro f hf
  unfold completedFilters at hf
  split at hf
  · split at hf
    · obtain rfl := List.mem_singleton.mp hf
      exact shows_completed _ _
    · cases hf
  · cases hf

variable {joins : List Join.Step} {fs : List Expr} {value : Expr} {base : String}

theorem shows_keys (hd : ¬ Shows n date.tokens) : ∀ k ∈ keys plan date, ¬ Shows n k.1.tokens := by
  intro k hk
  rcases List.mem_append.mp hk with period | dimension
  · obtain ⟨grain, -, rfl⟩ := Option.map_eq_some_iff.mp (Option.mem_toList.mp period)
    exact shows_truncate hd grain.unit
  · obtain ⟨d, -, rfl⟩ := List.mem_map.mp dimension
    exact shows_colOf d.table d.column

theorem shows_orderItems : ∀ o ∈ orderItems plan, ¬ Shows n o.tokens := by
  intro o ho
  unfold orderItems at ho
  split at ho
  · obtain rfl := List.mem_singleton.mp ho
    simpa [Expr.ascending] using shows_col periodName
  · split at ho
    · obtain rfl := List.mem_singleton.mp ho
      simpa [Expr.descending] using shows_col valueName
    · cases ho

theorem shows_joins (hj : Join.AreDeclared joins) :
    ¬ Shows n (Tree.FromItem.tokens ⟨.ofName base, joins.map Join.Step.join⟩) := by
  rw [Tree.shows_source]
  rintro ⟨_, hj', shown⟩
  obtain ⟨step, hs, rfl⟩ := List.mem_map.mp hj'
  obtain ⟨_, ⟨⟩, shown⟩ := (Tree.shows_join _ step.table (some step.condition)).mp shown
  obtain ⟨e, same⟩ := hj step hs
  rw [same] at shown
  simp [Catalog.Edge.condition, Expr.eq, shows_colOf] at shown

/-- A report on the usual path shows what its conditions and its value show. -/
theorem shows_assembled (hd : ¬ Shows n date.tokens) (hj : Join.AreDeclared joins) :
    Shows n (assembled plan base joins date fs value).tokens ↔
      (∃ f ∈ fs, Shows n f.tokens) ∨ Shows n value.tokens := by
  have items : (∃ i ∈ (assembled plan base joins date fs value).items, Shows n i.tokens) ↔
      Shows n value.tokens := by
    constructor
    · rintro ⟨i, hi, shown⟩
      rcases List.mem_append.mp hi with key | own
      · obtain ⟨k, hk, rfl⟩ := List.mem_map.mp key
        exact absurd (Tree.shows_as.mp shown) (shows_keys hd k hk)
      · obtain rfl := List.mem_singleton.mp own
        exact Tree.shows_as.mp shown
    · exact fun shown =>
        ⟨value.as valueName, List.mem_append_right _ List.mem_cons_self, Tree.shows_as.mpr shown⟩
  have groups : ¬ ∃ e ∈ (keys plan date).map Prod.fst, Shows n e.tokens := by
    simpa using fun e name hk => shows_keys hd (e, name) hk
  have order : ¬ ∃ o ∈ orderItems plan, Shows n o.tokens := by
    rintro ⟨o, ho, shown⟩
    exact shows_orderItems o ho shown
  rw [Tree.shows_query assembled_isPlain, items]
  simp only [assembled, groups, order, Tree.shows_where, Query.empty,
    List.not_mem_nil, false_and, exists_false, List.mem_singleton, exists_eq_left,
    shows_joins hj, false_or, or_false]
  exact or_comm

/-- The conditions of a report show its tenant, its dates and what those of the metric show. -/
theorem names_filters (m : Made plan metric schema tenantParam) (hn : isName tenantParam = true) :
    (∃ f ∈ m.filters, n ∈ names f.sql) ↔
      n = tenantParam ∨ (∃ f ∈ metric.extraFilters, n ∈ names f.sql) ∨ n ∈ dateNames plan := by
  have date := stands_colOf m.dateTable.name m.dateColumn
  have plain : ¬ Shows n m.date.tokens := shows_colOf _ _
  have tenant : n ∈ names m.scoping.sql ↔ n = tenantParam := by
    rw [mem_names (stands_scoping hn m.owned), shows_scoping m.owned]
  have completed : ¬ ∃ f ∈ completedFilters schema (metric.baseTable ::
      m.joins.map Join.Step.table), n ∈ names f.sql := by
    rintro ⟨f, hf, shown⟩
    rw [mem_names (stands_completedFilters _ _ f hf)] at shown
    exact shows_completedFilters _ f hf shown
  have range : (∃ f ∈ rangeFilters m.date plan.dateRange, n ∈ names f.sql) ↔
      n ∈ rangeNames plan.dateRange := by
    rw [← shows_rangeFilters plain]
    exact exists_congr fun f => and_congr_right fun hf => mem_names (stands_rangeFilters date _ f hf)
  have compared : (∃ f ∈ comparisonFilters plan m.date, n ∈ names f.sql) ↔
      n ∈ comparisonNames plan := by
    rw [← shows_comparisonFilters plain]
    exact exists_congr fun f => and_congr_right fun hf =>
      mem_names (stands_comparisonFilters date f hf)
  simp only [Made.filters, Made.rowFilters, List.cons_append, List.mem_cons, List.mem_append,
    Option.mem_toList, or_and_right, exists_or, exists_eq_left, tenant, completed,
    names_cancellation, range, compared, dateNames, false_or, or_assoc]

theorem names_query (m : Made plan metric schema tenantParam) (hn : isName tenantParam = true)
    (hw : ∀ e ∈ metric.printed, Output.Whole e.sql) :
    n ∈ names m.query.sql ↔ n = tenantParam ∨ n ∈ dateNames plan ∨
      ∃ e ∈ metric.expression :: metric.extraFilters, n ∈ names e.sql := by
  have plain : ¬ Shows n m.date.tokens := shows_colOf _ _
  have own := fun f hf => hw f (List.mem_append_right _ hf)
  have value := hw metric.expression List.mem_cons_self
  have date := stands_colOf m.dateTable.name m.dateColumn
  have declared := Join.declared_resolve m.joined
  have filters : ∀ f ∈ m.filters, Output.Whole f.sql :=
    standard_filters_whole plan schema m.base hn m.owned date own _
  -- the conditions are one token each as SQL, so that the query is one of separate tokens
  have text : m.query.sql = (assembled plan metric.baseTable m.joins m.date
      (m.filters.map Expr.sealed) metric.expression.sealed).sql :=
    assembled_like Tree.likeness_text
      (List.forall₂_same.mpr fun d _ => dimensionsAlike_refl Tree.likeness_text d)
      (Tree.text_sealed_all m.filters) (Tree.text_sealed metric.expression)
  have stands : Stands AtBlank (assembled plan metric.baseTable m.joins m.date
      (m.filters.map Expr.sealed) metric.expression.sealed).tokens :=
    stands_assembled date (Join.stands_declared declared) (Tree.stands_sealed_all filters)
      (Tree.stands_sealed value)
  rw [text, Query.sql, Output.mem_names_separate stands.separate,
    shows_assembled plain declared]
  have conditions := @names_filters n _ _ _ _ m hn
  simp only [List.mem_map, exists_exists_and_eq_and, Tree.shows_sealed, conditions, List.mem_cons,
    or_and_right, exists_or, exists_eq_left]
  exact iff_of_eq (by ac_rfl)

end Standard

namespace Trend

variable {p : Parts} {order : Tree.OrderItem} {limit : UInt64}

theorem shows_weeksBefore (weeks : Nat) : ¬ Shows n (weeksBefore weeks).tokens := by
  simp [weeksBefore, weekStart, Expr.sub, shows_colOf]

theorem shows_bounds : ¬ Shows n bounds.tokens := by
  have plain : bounds.IsPlain := ⟨rfl, rfl, rfl, nofun⟩
  rw [Tree.shows_query plain]
  simp [bounds, Query.ofItems, Query.empty, Tree.whereTokens, Expr.truncate, Expr.callOf,
    Expr.text]

theorem shows_boundsJoin :
    ¬ Shows n (Tree.Join.tokens ⟨.cross, .ofName boundsName, none⟩) := by
  simp [Tree.shows_join]

theorem shows_window : Shows n p.window.tokens ↔
    Shows n p.scoping.tokens ∨ ∃ f ∈ p.completed, Shows n f.tokens := by
  rw [window_eq]
  refine Iff.trans (Tree.shows_query ⟨rfl, rfl, rfl, nofun⟩) ?_
  simp [Query.empty, Tree.shows_where, Tree.shows_source, shows_boundsJoin, shows_colOf,
    Expr.ge, Expr.lt, weekStart, shows_weeksBefore, or_and_right, exists_or]

theorem shows_revenueWhere {condition : Expr} (hc : ¬ Shows n condition.tokens) :
    Shows n (p.revenueWhere condition).tokens ↔ Shows n p.revenue.tokens := by
  simp [Parts.revenueWhere, Expr.sum, Expr.callOf, Expr.int, hc]

theorem shows_totals : Shows n p.totals.tokens ↔
    Shows n p.revenue.tokens ∨ ∃ f ∈ p.lineFilters, Shows n f.tokens := by
  have late : ∀ weeks, ¬ Shows n ((Expr.colOf windowName p.dateColumn).ge
      (weeksBefore weeks)).tokens := by
    simp [Expr.ge, shows_colOf, shows_weeksBefore]
  have early : ∀ weeks, ¬ Shows n ((Expr.colOf windowName p.dateColumn).lt
      (weeksBefore weeks)).tokens := by
    simp [Expr.lt, shows_colOf, shows_weeksBefore]
  rw [totals_eq]
  refine Iff.trans (Tree.shows_query ⟨rfl, rfl, rfl, nofun⟩) ?_
  simp [Query.empty, Tree.shows_where, Tree.shows_source, Tree.shows_join,
    shows_revenueWhere (late _), shows_revenueWhere (early _), shows_colOf, Expr.eq]

theorem shows_ranked : ¬ Shows n p.ranked.tokens := by
  have plain : p.ranked.IsPlain := ⟨rfl, rfl, rfl, nofun⟩
  rw [Tree.shows_query plain]
  simp [Parts.ranked, Query.empty, Query.ofItems, Query.addSource, Tree.shows_source,
    Tree.whereTokens, shows_col, Expr.sub, Expr.div, Expr.eq, Expr.int, Expr.null]

theorem shows_query (ho : ¬ Shows n order.tokens) : Shows n (p.query order limit).tokens ↔
    Shows n p.window.tokens ∨ Shows n p.totals.tokens := by
  have label : ¬ Shows n p.label.tokens := by
    unfold Parts.label
    split <;> exact shows_colOf _ _
  have source : ¬ Shows n (Tree.FromItem.tokens ⟨.ofName rankedName, (dimensionJoin p).toList⟩) := by
    rw [Tree.shows_source]
    rintro ⟨j, hj, shown⟩
    obtain ⟨key, -, rfl⟩ := Option.map_eq_some_iff.mp (Option.mem_toList.mp hj)
    simp [Tree.shows_join, Expr.eq, shows_colOf] at shown
  rw [query_eq, Tree.shows_query ⟨rfl, rfl, rfl, by simp [Tree.Cte.ofQuery]⟩]
  simp [Query.empty, Tree.whereTokens, Tree.shows_cte, shows_bounds, shows_ranked, shows_col, label,
    source, ho]

theorem whole_of_collected (c : Collected metric schema options p)
    (hn : isName options.tenantParam = true) (hw : ∀ e ∈ metric.printed, Output.Whole e.sql) :
    p.AreWhole where
  scoping := stands_scoping hn c.scoping
  completed := c.completed ▸ stands_completed? schema p.anchor.name
  revenue := hw p.revenue (by simp [Metric.printed, c.revenue])
  lineFilters := c.lineFilters ▸ lineFilters_whole p.line hw

theorem shows_completed? (anchor : String) :
    ∀ f ∈ completed? schema anchor, ¬ Shows n f.tokens := by
  intro f hf
  unfold completed? at hf
  split at hf
  · split at hf
    · obtain rfl := Option.some.inj hf
      exact shows_completed _ _
    · cases hf
  · cases hf

theorem shows_collected (c : Collected metric schema options p) :
    Shows n p.window.tokens ↔ n = options.tenantParam := by
  have completed : ¬ ∃ f ∈ p.completed, Shows n f.tokens := by
    rw [c.completed]
    rintro ⟨f, hf, shown⟩
    exact shows_completed? p.anchor.name f hf shown
  rw [shows_window, shows_scoping c.scoping, or_iff_left completed]

theorem names_query (c : Collected metric schema options p)
    (hn : isName options.tenantParam = true) (hw : ∀ e ∈ metric.printed, Output.Whole e.sql)
    (ranking : Ranking) : n ∈ names (p.query (orderItem ranking) limit).sql ↔
      n = options.tenantParam ∨ ∃ e ∈ p.revenue :: metric.extraFilters, n ∈ names e.sql := by
  have whole := whole_of_collected c hn hw
  have stands : Stands AtBlank (p.sealed.query (orderItem ranking) limit).tokens :=
    stands_query (stand_sealed whole) (stands_orderItem ranking)
  have order : ¬ Shows n (orderItem ranking).tokens := by
      cases ranking <;> simp [orderItem, Expr.descending, shows_col]
  have totals : Shows n p.sealed.totals.tokens ↔
      ∃ e ∈ p.revenue :: metric.extraFilters, n ∈ names e.sql := by
    rw [shows_totals]
    simp [Parts.sealed, Parts.changed, c.lineFilters, or_and_right, exists_or, names_cancellation]
  rw [text_sealed, Query.sql, Output.mem_names_separate stands.separate,
    shows_query order, totals]
  exact or_congr_left (shows_collected (p := p) c)

end Trend

/-! ### Reports -/

variable {q : Query} {bindings : List (String × ParamValue)}

/-- A report shows its tenant, its dates and what the catalog shows of its metric. -/
theorem names_of_query (h : query plan catalog options = .ok (q, bindings))
    (hn : isName options.tenantParam = true) (hw : catalog.PrintsWhole plan.metric) :
    ∃ m ∈ catalog.metrics, m.key = plan.metric ∧ ∃ shown ⊆ m.printed, ∀ n, n ∈ names q.sql ↔
      n = options.tenantParam ∨ n ∈ bindings.map Prod.fst ∨ ∃ e ∈ shown, n ∈ names e.sql := by
  obtain ⟨checked, metric, found, made⟩ := query_cases h
  obtain ⟨known, key⟩ := Catalog.metric_found (ok_of_mapError found)
  have whole := hw metric known key
  refine ⟨metric, known, key, ?_⟩
  rcases made with ⟨p, ranking, limit, collected, rfl, rfl⟩ | ⟨m, rfl, rfl⟩
  · refine ⟨p.revenue :: metric.extraFilters, ?_, fun n => ?_⟩
    · simp [Metric.printed, collected.revenue]
    · rw [Trend.names_query collected hn whole]
      simp
  · refine ⟨metric.expression :: metric.extraFilters, ?_, fun n => ?_⟩
    · simp [Metric.printed]
    · rw [Standard.names_query m hn whole, keys_bindings checked]

/-- The values that a report is given besides the tenant are the dates of its plan, or none. -/
theorem bindings_of_query (h : query plan catalog options = .ok (q, bindings)) :
    bindings = [] ∨ bindings = Standard.bindings plan := by
  obtain ⟨-, -, -, ⟨-, -, -, -, -, none⟩ | ⟨-, -, dates⟩⟩ := query_cases h
  · exact .inl none
  · exact .inr dates

theorem mem_paramsOf {sql : String} {v : ParamValue} :
    (n, v) ∈ paramsOf sql bindings ↔ n ∈ names sql ∧ bindings.lookup n = some v := by
  simp [paramsOf]

/-- A report has a value for each of its placeholders and for nothing else, where the catalog
shows no placeholder but the tenant's. The value of the tenant is its own, unless the plan binds a
date by the same name. -/
theorem placeholders_have_values (made : compile plan catalog options = .ok report)
    (hn : isName options.tenantParam = true) (hw : catalog.PrintsWhole plan.metric)
    (only : catalog.ShowsOnly plan.metric [options.tenantParam]) :
    report.params.map Prod.fst = names report.sql ∧
      (options.tenantParam ∉ dateNames plan →
        (options.tenantParam, .text plan.tenant) ∈ report.params) := by
  obtain ⟨⟨q, bindings⟩, run, same⟩ := bind_eq_ok.mp made
  obtain rfl := Except.ok.inj same
  obtain ⟨m, known, key, shown, printed, mentioned⟩ := names_of_query run hn hw
  constructor
  · rw [names_paramsOf]
    refine List.filter_eq_self.mpr fun n hn => ?_
    have bound : n = options.tenantParam ∨ n ∈ bindings.map Prod.fst := by
      rcases (mentioned n).mp hn with tenant | date | ⟨e, he, own⟩
      · exact .inl tenant
      · exact .inr date
      · exact .inl (List.mem_singleton.mp (only m known key e (printed he) n own))
    rw [isSome_lookup]
    rcases bound with rfl | date
    · simp
    · simpa using .inl (by simpa using date)
  · intro free
    have unbound : bindings.lookup options.tenantParam = none := by
      rw [← Option.not_isSome_iff_eq_none, isSome_lookup]
      rcases bindings_of_query run with rfl | rfl
      · simp
      · rw [keys_bindings (query_cases run).1]
        simpa using free
    refine mem_paramsOf.mpr ⟨(mentioned _).mpr (.inl rfl), ?_⟩
    rw [List.lookup_append, unbound]
    simp

theorem mem_of_lookup {β : Type} {l : List (String × β)} {v : β} (h : l.lookup n = some v) :
    (n, v) ∈ l := by
  obtain ⟨before, after, rfl, -⟩ := List.lookup_eq_some_iff.mp h
  exact List.mem_append_right _ List.mem_cons_self

theorem date_of_pair {b : String × ParamValue} {first second : String} {dates : List Date}
    (h : b ∈ Standard.bindPair first second dates) : ∃ d, b.2 = .date d := by
  unfold Standard.bindPair at h
  split at h
  · rcases List.mem_pair.mp h with rfl | rfl <;> exact ⟨_, rfl⟩
  · cases h

theorem date_of_bindings {b : String × ParamValue} (h : b ∈ Standard.bindings plan) :
    ∃ d, b.2 = .date d := by
  rcases List.mem_append.mp h with range | compared
  · unfold Standard.rangeBindings at range
    split at range
    · cases range
    · rcases List.mem_append.mp range with start | stop
      · obtain ⟨d, -, rfl⟩ := Option.map_eq_some_iff.mp (Option.mem_toList.mp start)
        exact ⟨d, rfl⟩
      · obtain ⟨d, -, rfl⟩ := Option.map_eq_some_iff.mp (Option.mem_toList.mp stop)
        exact ⟨d, rfl⟩
  · unfold Standard.comparisonBindings at compared
    split at compared
    · cases compared
    · split at compared
      · exact date_of_pair compared
      · rcases List.mem_append.mp compared with starts | ends
        · exact date_of_pair starts
        · exact date_of_pair (List.mem_ite_nil_right.mp ends).2

/-- A tenant that is bound by the name of a date of its plan is lost: no value is a text. -/
theorem tenant_is_lost (run : query plan catalog options = .ok (q, bindings))
    (clash : options.tenantParam ∈ bindings.map Prod.fst)
    (made : compile plan catalog options = .ok report) (text : String) :
    (n, .text text) ∉ report.params := by
  obtain ⟨⟨_, _⟩, again, same⟩ := bind_eq_ok.mp made
  cases run.symm.trans again
  obtain rfl := Except.ok.inj same
  intro given
  obtain ⟨-, found⟩ := mem_paramsOf.mp given
  have bound : (bindings.lookup options.tenantParam).isSome = true := by
    rw [isSome_lookup]
    simpa using clash
  rw [List.lookup_append] at found
  cases own : bindings.lookup n with
  | some v =>
      rw [own] at found
      cases found
      have known := mem_of_lookup own
      rcases bindings_of_query run with rfl | rfl
      · cases known
      · obtain ⟨d, date⟩ := date_of_bindings known
        cases date
  | none =>
      -- the name is the tenant's then, which a date has taken
      rw [own, Option.none_or] at found
      cases List.mem_singleton.mp (mem_of_lookup found)
      rw [own] at bound
      cases bound

/-! ### The catalog for restaurants -/

theorem plainSum_showsNone {key base description : String} {value : Expr}
    (hv : Stands AtBreak value.tokens) (hn : ¬ Shows n value.tokens) :
    ∀ e ∈ (Catalog.Restaurant.plainSum key base value description).printed, n ∉ names e.sql := by
  have sum : Stands AtBlank value.sum.tokens := stands_callOn (by decide) hv
  rw [plainSum_printed]
  refine List.forall_mem_cons.mpr ⟨?_, List.forall_mem_singleton.mpr ?_⟩
  · rw [mem_names sum]
    simpa [Expr.sum, Expr.callOf] using hn
  · rwa [mem_names hv.before_blank]

theorem restaurant_showsOnly (key : String) (known : List String) :
    Catalog.restaurant.ShowsOnly key known := by
  have column : ∀ table name, Stands AtBreak (Expr.colOf table name).tokens := stands_colOf
  intro m hm _ e he n shown
  simp only [Catalog.restaurant, Catalog.Restaurant.metrics, List.mem_cons, List.not_mem_nil,
    or_false] at hm
  refine absurd shown ?_
  rcases hm with rfl | rfl | rfl | rfl | rfl
  · exact plainSum_showsNone (column "sales" "total") (shows_colOf _ _) e he
  · exact plainSum_showsNone
      ((column "items" "price").before_blank.binary (column "items" "quantity"))
      (by simp [shows_colOf]) e he
  · exact plainSum_showsNone (column "sales" "num_customers") (shows_colOf _ _) e he
  · exact plainSum_showsNone (column "expenses" "amount") (shows_colOf _ _) e he
  · exact plainSum_showsNone (column "payments" "amount") (shows_colOf _ _) e he

theorem restaurant_placeholders_have_values
    (made : compile plan Catalog.restaurant options = .ok report)
    (hn : isName options.tenantParam = true) (free : options.tenantParam ∉ dateNames plan) :
    report.params.map Prod.fst = names report.sql ∧
      (options.tenantParam, .text plan.tenant) ∈ report.params := by
  obtain ⟨keys, tenant⟩ := placeholders_have_values made hn (restaurant_printsWhole _)
    (restaurant_showsOnly _ _)
  exact ⟨keys, tenant free⟩

/-- Expenses since a day lose their tenant where it is bound by the name of that day. -/
theorem expenses_lose_tenant :
    ∃ report, compile (expensesBy "name") Catalog.restaurant (bindingTenant "start_date")
        = .ok report ∧
      report.params.map Prod.fst = ["start_date"] ∧
      ∀ n text, (n, .text text) ∉ report.params := by
  have shown : paramNames (expensesBy "name") Catalog.restaurant (bindingTenant "start_date") =
      some ["start_date"] := by decide +kernel
  obtain ⟨report, made, keys⟩ := compile_of_paramNames shown
  refine ⟨report, made, keys, fun n text => ?_⟩
  obtain ⟨⟨q, bindings⟩, run, -⟩ := bind_eq_ok.mp made
  refine tenant_is_lost run ?_ made text
  have bound : ((query (expensesBy "name") Catalog.restaurant
      (bindingTenant "start_date")).toOption.map fun made => made.2.map Prod.fst) =
      some ["start_date"] := by decide +kernel
  rw [run] at bound
  have names : bindings.map Prod.fst = ["start_date"] := Option.some.inj bound
  rw [names]
  exact List.mem_cons_self

end ReportSql.Report
