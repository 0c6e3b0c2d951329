import ReportSql.Catalog.Restaurant
import ReportSql.Catalog.Toml
import ReportSql.Proofs.KeptParts
import ReportSql.Proofs.SameTree
import ReportSql.Proofs.SoundCatalogs

/-!
The texts of the metrics in a catalog. What a catalog checks of a metric holds of its text, but for
the parts that are kept as raw SQL: these may hold the queries, the aggregates and the windows that
a metric is not to have. Of the expression of a metric it is only asked that it aggregates
something.
-/
namespace ReportSql.Tree

open Sql (Node)

variable {x : Sql.Expr} {e : Expr} {n : Node} {p : Place}

/-! ### Expressions without queries -/

/-- Whether a construct stands in a part of an expression that its tree keeps as raw SQL. -/
def IsRawIn (x : Sql.Expr) (e : Expr) (n : Node) : Prop :=
  ∃ y : Sql.Expr, (Node.expr x).Within (.expr y) ∧ (Node.expr y).Within n ∧
    Expr.ofSyntax y = .ok (.raw y.render) ∧ .raw y.render ∈ e.nodes

theorem nodes_of_within (plain : e.children = []) (h : (Place.expr e).Within p) :
    ∃ f ∈ e.nodes, p = .expr f := by
  induction h with
  | refl => exact ⟨e, e.self_mem_nodes, rfl⟩
  | tail _ part ih =>
      obtain ⟨f, hf, rfl⟩ := ih
      rcases List.mem_append.mp part with part | part
      · obtain ⟨g, hg, rfl⟩ := List.mem_map.mp part
        exact ⟨g, mem_nodes_trans hf (Expr.mem_nodes_part hg g.self_mem_nodes), rfl⟩
      · obtain ⟨q, hq, -⟩ := List.mem_map.mp part
        have inside : q ∈ e.children := List.mem_filterMap.mpr ⟨f, hf, Option.mem_toList.mp hq⟩
        rw [plain] at inside
        cases inside

/-- A part of the syntax of an expression without queries is converted to a node of the expression,
stands in raw SQL, or is the text of an interval. -/
theorem found_or_raw (h : Expr.ofSyntax x = .ok e) (plain : e.children = [])
    (inside : (Node.expr x).Within n) :
    (∃ y f, n = .expr y ∧ Expr.ofSyntax y = .ok f ∧ f ∈ e.nodes) ∨ IsRawIn x e n ∨
      ∃ v, n = .expr (.value v) := by
  have node {m : Node} {r : Place} (hr : (Place.expr e).Within r) (own : Becomes m r) :
      ∃ y f, m = .expr y ∧ r = .expr f ∧ Expr.ofSyntax y = .ok f ∧ f ∈ e.nodes := by
    obtain ⟨f, hf, rfl⟩ := nodes_of_within plain hr
    cases own with
    | expr own => exact ⟨_, f, rfl, rfl, own, hf⟩
  rcases Becomes.within (.expr h) inside with ⟨r, hr, own⟩ | ⟨m, r, hm, hr, own, inner, lost⟩ | v
  · obtain ⟨y, f, rfl, -, own, hf⟩ := node hr own
    exact .inl ⟨y, f, rfl, own, hf⟩
  · obtain ⟨y, f, rfl, rfl, own, hf⟩ := node hr own
    rcases lost with kept | ⟨_, none, -⟩
    · cases kept
      exact .inr (.inl ⟨y, hm, inner, own, hf⟩)
    · cases none
  · exact .inr (.inr v)

/-! ### Queries and aggregates -/

/-- Whether a construct is a call of an aggregate or a call with a window. -/
def IsAggregating : Node → Prop
  | .expr (.call name _ _ _ _ _ _ _ window) =>
    aggregateNames.contains (Text.asciiLower (Sql.pathText name)) = true ∨ window ≠ []
  | _ => False

/-- An expression without queries has those of its syntax in raw SQL. -/
theorem queries_raw (h : Expr.ofSyntax x = .ok e) (plain : e.children = []) {s : Sql.Query}
    (inside : (Node.expr x).Within (.query s)) : IsRawIn x e (.query s) := by
  rcases found_or_raw h plain inside with ⟨_, _, same, -⟩ | raw | ⟨_, same⟩
  · cases same
  · exact raw
  · cases same

/-- An expression without queries and aggregates has the aggregates and windows of its syntax in
raw SQL. -/
theorem aggregates_raw (h : Expr.ofSyntax x = .ok e) (plain : e.children = [])
    (free : e.containsAggregate = false) (aggregating : IsAggregating n)
    (inside : (Node.expr x).Within n) : IsRawIn x e n := by
  rcases found_or_raw h plain inside with ⟨y, f, rfl, own, hf⟩ | raw | ⟨_, rfl⟩
  · cases y with
    | call name inBraces form arguments clauses within filter nulls window =>
        have raw (h : f = .raw (Sql.Expr.call name inBraces form arguments clauses within filter
            nulls window).render) : IsRawIn x e (.expr (.call name inBraces form arguments clauses
              within filter nulls window)) :=
          ⟨_, inside, .refl, h ▸ own, h ▸ hf⟩
        have read := own
        simp only [Expr.ofSyntax] at read
        split at read
        · next isPlain =>
          simp only [bind_eq_ok] at read
          obtain ⟨⟨es, all⟩, -, read⟩ := read
          cases all with
          | false => exact raw (Except.ok.inj read).symm
          | true =>
              obtain rfl : _ = f := Except.ok.inj read
              have aggregate : (Expr.call (Sql.pathText name) es
                  (form == .list (some "DISTINCT"))).isAggregate = true := by
                rcases aggregating with known | window
                · exact known
                · simp [isPlainCall, window] at isPlain
              have contains : e.containsAggregate = true := List.any_eq_true.mpr ⟨_, hf, aggregate⟩
              rw [free] at contains
              cases contains
        · exact raw (Except.ok.inj read).symm
    | _ => cases aggregating
  · exact raw
  · cases aggregating

end ReportSql.Tree

namespace ReportSql.Catalog

open Sql (Node)
open Tree (Expr IsRawIn IsAggregating)

/-- Whether an expression was read from a text, by the syntax of the text. -/
def ReadBy (text : String) (x : Sql.Expr) (e : Expr) : Prop :=
  (∃ s, Tree.statements? ("SELECT " ++ text) = some [.query s] ∧ Tree.loneItem? s = some x) ∧
    Expr.ofSyntax x = .ok e

/-- What is known of a metric and of the texts that it was read from. -/
structure Sound (entry : MetricEntry) (m : Metric) : Prop where
  key : m.key = entry.key
  aggregates : m.expression.containsAggregate = true
  expression : ∃ x, ReadBy entry.expression x m.expression ∧
    ∀ s, (Node.expr x).Within (.query s) → IsRawIn x m.expression (.query s)
  filters : List.Forall₂ (fun text e => ∃ x, ReadBy text x e ∧
      (∀ s, (Node.expr x).Within (.query s) → IsRawIn x e (.query s)) ∧
      ∀ n, IsAggregating n → (Node.expr x).Within n → IsRawIn x e n)
    entry.extraFilters m.extraFilters

theorem readBy_of_read {text : String} {e : Expr} (h : Expr.read text = .ok e) :
    ∃ x, ReadBy text x e := by
  unfold Expr.read at h
  split at h
  · next s found =>
    split at h
    · next x lone => exact ⟨x, ⟨s, found, lone⟩, ok_of_mapError h⟩
    · cases h
  · cases h

theorem metric_read {entry : MetricEntry} {m : Metric} (h : entry.metric = .ok m) :
    m.key = entry.key ∧ Expr.read entry.expression = .ok m.expression ∧
      List.Forall₂ (fun text e => Expr.read text = .ok e) entry.extraFilters m.extraFilters := by
  simp only [MetricEntry.metric, bind_eq_ok] at h
  obtain ⟨e, own, es, filters, h⟩ := h
  cases h
  exact ⟨rfl, ok_of_mapError own, (mapM_eq_ok filters).imp fun _ _ => ok_of_mapError⟩

theorem metric_sound {schema : Schema} {entry : MetricEntry} {m : Metric}
    (h : entry.metric = .ok m) (faultless : metricFault? schema m = none) : Sound entry m := by
  obtain ⟨key, expression, filters⟩ := metric_read h
  obtain ⟨aggregates, plain, free⟩ := metric_plain faultless
  obtain ⟨x, own⟩ := readBy_of_read expression
  refine ⟨key, aggregates, ⟨x, own, fun s => Tree.queries_raw own.2 plain⟩, ?_⟩
  refine List.forall₂_iff_zip.mpr ⟨filters.length_eq, fun {text e} pair => ?_⟩
  obtain ⟨noQuery, noAggregate⟩ := free e (List.of_mem_zip pair).2
  obtain ⟨x, own⟩ := readBy_of_read (List.forall₂_zip filters pair)
  exact ⟨x, own, fun s => Tree.queries_raw own.2 noQuery,
    fun n => Tree.aggregates_raw own.2 noQuery noAggregate⟩

/-- A catalog that is read has the metrics of its text, in their order. Each adds up something, and
the queries of their texts and the aggregates and windows of their filters stand in raw SQL. -/
theorem read_sound {text : String} {catalog : Catalog} (h : Catalog.read text = .ok catalog) :
    ∃ entries, Toml.Value.read? text >>= Entries.ofToml? = some entries ∧
      List.Forall₂ Sound entries.metrics catalog.metrics := by
  unfold Catalog.read at h
  split at h
  · cases h
  · next entries found =>
    refine ⟨entries, found, ?_⟩
    have built := ok_of_mapError h
    simp only [Entries.catalog, bind_eq_ok] at built
    obtain ⟨schema, -, metrics, read, built⟩ := built
    unfold Catalog.build at built
    split at built
    · cases built
    · next faultless =>
      cases built
      refine List.forall₂_iff_zip.mpr ⟨(mapM_eq_ok read).length_eq, fun {entry m} pair => ?_⟩
      have own := metric_faultless faultless m (List.of_mem_zip pair).2
      exact metric_sound (List.forall₂_zip (mapM_eq_ok read) pair) own

/-- Whether a metric with an expression and a filter on the sales of a restaurant is let through as
these trees. -/
def isAccepted (expression filter : String) (tree filterTree : Expr) : Bool :=
  (MetricEntry.metric ⟨"m", "sales", expression, [filter], none⟩).toOption.any fun m =>
    m.expression == tree && m.extraFilters == [filterTree]
      && (metricFault? Catalog.restaurant.schema m).isNone

/-- Raw SQL in a metric may hold a query, and in its filter an aggregate. -/
theorem raw_is_accepted :
    isAccepted "SUM(total) + ARRAY(SELECT tip FROM items)" "MAX(total) FILTER (WHERE tip) > tip"
      ((Expr.col "total").sum.add (.raw "ARRAY(SELECT tip FROM items)"))
      (.binary (.raw "MAX(total) FILTER (WHERE tip)") .gt (.col "tip")) = true := by
  decide +kernel

/-- The expression of a metric may have columns outside its aggregates, and aggregates of
aggregates. -/
theorem loose_columns_are_accepted :
    isAccepted "SUM(AVG(total)) + sales.tax" "total"
      ((Expr.callOf "AVG" [.col "total"]).sum.add (.colOf "sales" "tax")) (.col "total") = true := by
  decide +kernel

end ReportSql.Catalog
