import ReportSql.Proofs.MadeReports
import ReportSql.Proofs.SqlValues

/-!
The weeks of a trend. Its conditions on dates hold of the points in time of the recent and the prior
weeks before a boundary, its two sums divide the revenue of the line items of these weeks between
them, and the change it ranks by is unknown just where there was no revenue before.
-/
namespace ReportSql.Report.Trend

open Catalog (Metric Schema)
open ReportSql.Tree (Cte Expr Query filterCondition)
open Values

variable {plan : Plan} {trend : ReportSql.Trend} {metric : Metric} {schema : Schema}
  {options : Options} {q : Query} {p : Parts} {s : Scope} {boundary date : Moment} {weeks : Nat}
  {e : Expr} {v : Value} {recent prior : ℚ}

/-! ### The weeks before a boundary -/

/-- The boundary is the start of the current week. -/
theorem output_bounds {now : Moment} (current : s.value (.callOf "NOW" []) = some (.moment now)) :
    output [s] bounds = [(some weekStartName, some (.moment (.startOf now.day.weekStart)))] := by
  have week : truncate? "week" now = some (.startOf now.day.weekStart) := rfl
  have start := value_truncate current week
  have unfolded : output [s] bounds =
      [(some weekStartName, (s.value (.truncate "week" (.callOf "NOW" []))).bind toMoment)] := rfl
  rw [unfolded, start]
  rfl

def weeksBack (boundary : Moment) (weeks : Nat) : Moment := boundary.addDays (-(7 * weeks))

theorem value_weeksBefore (start : s.column (some boundsName) weekStartName = .moment boundary) :
    s.value (weeksBefore weeks) = some (.moment (weeksBack boundary weeks)) := by
  have own : s.value weekStart = some (.moment boundary) := congrArg some start
  have days := value_sub own rfl (value_interval_days (weeks * 7))
  have count : ((weeks * 7 : Nat) : Int) = 7 * weeks := by omega
  rw [count] at days
  exact days

theorem decides_recent (start : s.column (some boundsName) weekStartName = .moment boundary)
    (own : s.value e = some v) (dated : v.moment? = some date) :
    s.Decides (e.ge (weeksBefore weeks)) (weeksBack boundary weeks ≤ date) :=
  Scope.decides_ge own dated (value_weeksBefore start) rfl

theorem decides_prior (start : s.column (some boundsName) weekStartName = .moment boundary)
    (own : s.value e = some v) (dated : v.moment? = some date) :
    s.Decides (e.lt (weeksBefore weeks)) (¬ weeksBack boundary weeks ≤ date) :=
  (Scope.decides_lt own dated (value_weeksBefore start) rfl).congr Moment.not_le.symm

namespace Parts

/-- The conditions on the dates of transactions. -/
def weekFilters (p : Parts) : List Expr := [
  (Expr.colOf p.anchor.name p.dateColumn).ge (weeksBefore (p.recentWeeks + p.priorWeeks)),
  (Expr.colOf p.anchor.name p.dateColumn).lt weekStart]

/-- Whether a point in time is in the weeks of a trend. -/
def InWeeks (p : Parts) (boundary date : Moment) : Prop :=
  weeksBack boundary (p.recentWeeks + p.priorWeeks) ≤ date ∧ date < boundary

/-- Whether a point in time is in the recent ones of these weeks. -/
def IsRecent (p : Parts) (boundary date : Moment) : Prop :=
  weeksBack boundary p.recentWeeks ≤ date

instance : Decidable (p.IsRecent boundary date) :=
  inferInstanceAs (Decidable (weeksBack boundary p.recentWeeks ≤ date))

end Parts

theorem decideAll_weekFilters (start : s.column (some boundsName) weekStartName = .moment boundary)
    (dated : (s.column (some p.anchor.name) p.dateColumn).moment? = some date) :
    s.DecideAll p.weekFilters (p.InWeeks boundary date) := by
  have own : s.value (.colOf p.anchor.name p.dateColumn) =
      some (s.column (some p.anchor.name) p.dateColumn) := value_colOf
  have stop : s.value weekStart = some (.moment boundary) := congrArg some start
  have before := Scope.decides_lt own dated stop rfl
  exact (decides_recent start own dated).all.append before.all

theorem holds_window (start : s.column (some boundsName) weekStartName = .moment boundary)
    (dated : (s.column (some p.anchor.name) p.dateColumn).moment? = some date) :
    s.Holds p.window.condition ↔
      (∀ f ∈ p.scoping :: p.completed.toList, s.IsTrue f) ∧ p.InWeeks boundary date := by
  have condition : p.window.condition =
      filterCondition (p.scoping :: p.completed.toList ++ p.weekFilters) :=
    congrArg Query.condition (window_eq p)
  rw [condition, Scope.holds_filterCondition, List.forall_mem_append,
    (decideAll_weekFilters start dated).2]

/-! ### Revenue -/

/-- A line item with what its sale and it are read as. -/
structure LineItem where
  sale : Scope
  row : Scope
  date : Moment
  revenue : ℚ

/-- Whether a line item has its date and its revenue, and the weeks end at a boundary. -/
structure LineItem.Reads (p : Parts) (boundary : Moment) (i : LineItem) : Prop where
  saleBoundary : i.sale.column (some boundsName) weekStartName = .moment boundary
  saleDate : (i.sale.column (some p.anchor.name) p.dateColumn).moment? = some i.date
  boundary : i.row.column (some boundsName) weekStartName = .moment boundary
  date : (i.row.column (some windowName) p.dateColumn).moment? = some i.date
  revenue : i.row.value p.revenue = some (.number i.revenue)

/-- The line items that a trend counts: their sales and they themselves pass its conditions. -/
def Parts.counted (p : Parts) (items : List LineItem) : List LineItem :=
  items.filter fun i => i.sale.Holds p.window.condition ∧ i.row.Holds p.totals.condition

def revenueOf (items : List LineItem) : ℚ := (items.map LineItem.revenue).sum

variable {items : List LineItem}

/-- The sum of the revenue of the items with a condition. -/
theorem grouped_revenueWhere {condition : Expr} {P : LineItem → Prop} [DecidablePred P]
    (nonempty : items ≠ []) (reads : ∀ i ∈ items, i.Reads p boundary)
    (decides : ∀ i ∈ items, i.row.Decides condition (P i)) :
    grouped (items.map LineItem.row) (p.revenueWhere condition) =
      some (.number (revenueOf (items.filter P))) := by
  have each : ∀ i ∈ items, i.row.value (.ifElse condition p.revenue (.int 0)) =
      some (.number (if P i then i.revenue else 0)) := by
    intro i own
    have zero : i.row.value (.int 0) = some (.number 0) := rfl
    rw [Scope.value_ifElse (decides i own), (reads i own).revenue, zero]
    split <;> rfl
  have sum : (items.map fun i => if P i then i.revenue else 0).sum = revenueOf (items.filter P) := by
    rw [List.sum_map_ite]
    simp [revenueOf]
  rw [Parts.revenueWhere, grouped_sum nonempty each, sum]

/-- The sums of a group of line items. -/
theorem output_totals (nonempty : items ≠ []) (reads : ∀ i ∈ items, i.Reads p boundary) :
    ∃ key, output (items.map LineItem.row) p.totals = [
      (some p.groupKey, key),
      (some "recent_rev", some (.number
        (revenueOf (items.filter fun i => p.IsRecent boundary i.date)))),
      (some "prior_rev", some (.number
        (revenueOf (items.filter fun i => ¬ p.IsRecent boundary i.date))))] := by
  have date : ∀ i ∈ items, i.row.value (.colOf windowName p.dateColumn) =
      some (i.row.column (some windowName) p.dateColumn) := fun _ _ => value_colOf
  have recent := grouped_revenueWhere (P := fun i => p.IsRecent boundary i.date) nonempty reads
    fun i own => decides_recent (reads i own).boundary (date i own) (reads i own).date
  have prior := grouped_revenueWhere (P := fun i => ¬ p.IsRecent boundary i.date) nonempty reads
    fun i own => decides_prior (reads i own).boundary (date i own) (reads i own).date
  refine ⟨grouped (items.map LineItem.row) (.colOf p.line.name p.groupKey), ?_⟩
  rw [totals_eq]
  simp only [output, List.map_cons, List.map_nil, Expr.as, recent, prior]

/-! ### The change -/

def delta : Expr := (Expr.col "recent_rev").sub (.col "prior_rev")

def change : Expr :=
  .ifElse ((Expr.col "prior_rev").eq (.int 0)) .null ((Expr.paren delta).div (.col "prior_rev"))

theorem output_ranked (s : Scope) (p : Parts) :
    (some "pct_change", s.value change) ∈ output [s] p.ranked := by
  have listed : change.as "pct_change" ∈ p.ranked.items := by
    simp [Parts.ranked, Query.ofItems, Query.addSource, change, delta]
  exact List.mem_map_of_mem (f := fun i => (i.label, grouped [s] i.expr)) listed

/-- The change is unknown just where there was nothing before. It divides by nothing else. -/
theorem output_change (recentOwn : s.column none "recent_rev" = .number recent)
    (priorOwn : s.column none "prior_rev" = .number prior) :
    ∃ v, (some "pct_change", some v) ∈ output [s] p.ranked ∧ (v = .null ↔ prior = 0) := by
  have recentValue : s.value (.col "recent_rev") = some (.number recent) := congrArg some recentOwn
  have priorValue : s.value (.col "prior_rev") = some (.number prior) := congrArg some priorOwn
  have value : s.value change = if prior = 0 then s.value .null
      else s.value ((Expr.paren delta).div (.col "prior_rev")) :=
    Scope.value_ifElse (Scope.decides_zero priorValue)
  have difference : s.value (.paren delta) = some (.number (recent - prior)) :=
    value_difference recentValue priorValue
  have listed := output_ranked s p
  rw [value, value_quotient difference priorValue] at listed
  by_cases zero : prior = 0
  · rw [if_pos zero] at listed
    exact ⟨.null, listed, by simp [zero]⟩
  · rw [if_neg zero, if_neg zero] at listed
    exact ⟨_, listed, by simp [zero]⟩

/-! ### Trends -/

/-- A trend counts the weeks that it is asked for, or those of the options. -/
theorem parts_weeks (h : parts plan trend metric schema options = .ok p) :
    p.recentWeeks = weekCount trend.recentWeeks options.recentWeeks ∧
      p.priorWeeks = weekCount trend.priorWeeks options.priorWeeks := by
  iterate 9 (obtain ⟨_, -, h⟩ := bind_eq_ok.mp h)
  cases h
  exact ⟨rfl, rfl⟩

/-- What a trend shows of the weeks before a boundary: the first query by name lets the transactions
of these weeks pass, the second divides the revenue of their line items into recent and prior
revenue, and the change of the third is NULL just where there was no prior revenue. -/
theorem trend_divides_weeks (h : query plan trend metric schema options = .ok q) :
    ∃ p, parts plan trend metric schema options = .ok p ∧
      p.recentWeeks = weekCount trend.recentWeeks options.recentWeeks ∧
      p.priorWeeks = weekCount trend.priorWeeks options.priorWeeks ∧
      q.ctes = [.ofQuery boundsName bounds, .ofQuery windowName p.window,
        .ofQuery totalsName p.totals, .ofQuery rankedName p.ranked] ∧
      (∀ (s : Scope) (boundary date : Moment),
        s.column (some boundsName) weekStartName = .moment boundary →
        (s.column (some p.anchor.name) p.dateColumn).moment? = some date →
        s.DecideAll p.weekFilters (p.InWeeks boundary date) ∧
        (s.Holds p.window.condition ↔
          (∀ f ∈ p.scoping :: p.completed.toList, s.IsTrue f) ∧ p.InWeeks boundary date)) ∧
      ∀ (boundary : Moment) (items : List LineItem), (∀ i ∈ items, i.Reads p boundary) →
        p.counted items ≠ [] →
        ∃ (key : Option Value) (recent prior : ℚ),
          output ((p.counted items).map LineItem.row) p.totals = [
            (some p.groupKey, key), (some "recent_rev", some (.number recent)),
            (some "prior_rev", some (.number prior))] ∧
          recent = revenueOf ((p.counted items).filter fun i => p.IsRecent boundary i.date) ∧
          prior = revenueOf ((p.counted items).filter fun i => ¬ p.IsRecent boundary i.date) ∧
          recent + prior = revenueOf (p.counted items) ∧
          ∀ s : Scope, s.column none "recent_rev" = .number recent →
            s.column none "prior_rev" = .number prior →
            ∃ v, (some "pct_change", some v) ∈ output [s] p.ranked ∧ (v = .null ↔ prior = 0) := by
  obtain ⟨p, collected, h⟩ := bind_eq_ok.mp h
  obtain rfl := Except.ok.inj h
  obtain ⟨recentWeeks, priorWeeks⟩ := parts_weeks collected
  refine ⟨p, collected, recentWeeks, priorWeeks, ?_, ?_, ?_⟩
  · rw [query_eq]
  · intro s boundary date start dated
    exact ⟨decideAll_weekFilters start dated, holds_window start dated⟩
  · intro boundary items reads nonempty
    have counted : ∀ i ∈ p.counted items, i.Reads p boundary :=
      fun i own => reads i (List.mem_of_mem_filter own)
    obtain ⟨key, totals⟩ := output_totals nonempty counted
    refine ⟨key, _, _, totals, rfl, rfl, ?_, fun s => output_change⟩
    exact List.sum_map_filter_add_sum_map_filter_not _ _ _

def itemRevenue : Metric :=
  Catalog.Restaurant.plainSum "item_revenue" "items"
    ((Expr.colOf "items" "price").mul (.colOf "items" "quantity")) "Line-item revenue."

/-- The last two weeks against the four before, by product. -/
def productTrend : ReportSql.Trend := ⟨true, some 2, none, none⟩

/-- One item sold at some time and price. -/
def soldItem (boundary date : Moment) (price : ℚ) : LineItem :=
  let row : Scope := {
    column _ name :=
      if name = weekStartName then .moment boundary
      else if name = "created_at" then .moment date
      else if name = "sale_state" then .text "CLOSED"
      else if name = "price" then .number price
      else if name = "quantity" then .number 1
      else .null
    param _ := .text "Cafe"
    quotient := (· / ·)
    other _ := some (.text "cafe") }
  ⟨row, row, date, price⟩

theorem soldItem_reads {price : ℚ} (dateColumn : p.dateColumn = "created_at")
    (revenue : p.revenue = (Expr.colOf "items" "price").mul (.colOf "items" "quantity")) :
    (soldItem boundary date price).Reads p boundary := by
  refine ⟨rfl, ?_, rfl, ?_, ?_⟩
  · rw [dateColumn]
    rfl
  · rw [dateColumn]
    rfl
  · rw [revenue]
    exact congrArg (fun x => some (Value.number x)) (mul_one price)

/-- Items of a sale before the recent weeks, of one on their first day and of one after them. -/
def soldItems : List LineItem := [
  soldItem ⟨0⟩ (weeksBack ⟨0⟩ 6) 5, soldItem ⟨0⟩ (weeksBack ⟨0⟩ 2) 20, soldItem ⟨0⟩ ⟨0⟩ 7]

theorem productTrend_divides_weeks : ∃ (q : Query) (p : Parts) (key : Option Value),
    query (.simple "item_revenue" "items" "Cafe") productTrend itemRevenue
      Catalog.Restaurant.schema ⟨"restaurant", 2, 4, 20⟩ = .ok q ∧
    q.ctes = [.ofQuery boundsName bounds, .ofQuery windowName p.window,
      .ofQuery totalsName p.totals, .ofQuery rankedName p.ranked] ∧
    output ((p.counted soldItems).map LineItem.row) p.totals = [
      (some "product_id", key), (some "recent_rev", some (.number 20)),
      (some "prior_rev", some (.number 5))] := by
  have runs : (query (.simple "item_revenue" "items" "Cafe") productTrend itemRevenue
      Catalog.Restaurant.schema ⟨"restaurant", 2, 4, 20⟩).isOk = true := by
    decide +kernel
  obtain ⟨q, made⟩ := exists_of_isOk runs
  obtain ⟨p, collected, -, -, ctes, -, divides⟩ := trend_divides_weeks made
  have parts := Except.ok.inj collected
  have item : ∀ date price, (soldItem ⟨0⟩ date price).Reads p ⟨0⟩ := fun _ _ =>
    soldItem_reads (congrArg Parts.dateColumn parts).symm (congrArg Parts.revenue parts).symm
  have reads : ∀ i ∈ soldItems, i.Reads p ⟨0⟩ := by
    simp only [soldItems, List.forall_mem_cons]
    exact ⟨item _ _, item _ _, item _ _, nofun⟩
  obtain rfl := parts
  obtain ⟨key, recent, prior, sums, recentSum, priorSum, -⟩ := divides ⟨0⟩ soldItems reads nofun
  have recentRevenue : recent = 20 := recentSum.trans (by decide +kernel)
  have priorRevenue : prior = 5 := priorSum.trans (by decide +kernel)
  rw [recentRevenue, priorRevenue] at sums
  exact ⟨q, _, key, made, ctes, sums⟩

end ReportSql.Report.Trend
