import ReportSql.Proofs.MadeReports

/-!
The values that a report is given. They are bound by name: what a plan gives as its tenant and its
dates goes into the parameters of its report and not into the text, so that plans that differ in
these values alone have one text and the same parameters.
-/
namespace ReportSql

/-- Whether two ranges are open on the same sides. -/
structure DateRange.OpenAlike (r s : DateRange) : Prop where
  start : r.start.isSome = s.start.isSome
  stop : r.stop.isSome = s.stop.isSome

/-- Whether two plans differ in nothing but the tenant and the dates that both of them give. -/
structure Plan.SameButValues (p q : Plan) : Prop where
  metric : p.metric = q.metric
  baseTable : p.baseTable = q.baseTable
  dateRange : Option.Rel DateRange.OpenAlike p.dateRange q.dateRange
  comparisonDates : p.comparisonDates.isSome = q.comparisonDates.isSome
  comparisonEnds : p.comparisonEnds.isSome = q.comparisonEnds.isSome
  grain : p.grain = q.grain
  dimensions : p.dimensions = q.dimensions
  limit : p.limit = q.limit
  trend : p.trend = q.trend

end ReportSql

namespace ReportSql.Report

open Catalog (Metric Schema)
open ReportSql.Tree (Expr)

variable {p q plan : Plan} {r s : Option DateRange} {catalog : Catalog} {options : Options} {dates ends : List Date}

/-! ### Plans without faults -/

/-- A plan without faults compares two dates, and gives two ends to them if any. -/
theorem compared_of_check (h : plan.check = .ok ()) (hd : plan.comparisonDates = some dates) :
    dates.length = 2 ∧ ∀ ends, plan.comparisonEnds = some ends → ends.length = 2 := by
  obtain ⟨_, -, rest⟩ := bind_eq_ok.mp h
  obtain ⟨_, -, own⟩ := bind_eq_ok.mp rest
  have faultless : plan.comparisonFault? = none := by
    unfold Plan.checkComparison at own
    split at own
    · cases own
    · next none => exact none
  simp only [Plan.comparisonFault?, hd] at faultless
  split at faultless
  · cases faultless
  · next two =>
    have two : dates.length = 2 := by simpa using two
    refine ⟨two, fun ends he => ?_⟩
    simpa [he, two] using faultless

/-- What a report compares is counted once more when it is made, which finds no other fault. -/
theorem checkCompared_of_check (h : plan.check = .ok ()) : Standard.checkCompared plan = .ok () := by
  unfold Standard.checkCompared
  cases hd : plan.comparisonDates with
  | none => rfl
  | some dates =>
      obtain ⟨two, both⟩ := compared_of_check h hd
      cases he : plan.comparisonEnds with
      | none => simp [two, Standard.hasOwnEnds, he]
      | some ends => simp [two, both ends he]

/-! ### The names that dates are bound by -/

def rangeNames (range : Option DateRange) : List String :=
  match range with
  | none => []
  | some r => (if r.start.isSome then ["start_date"] else [])
      ++ (if r.stop.isSome then ["end_date"] else [])

def comparisonNames (plan : Plan) : List String :=
  if plan.comparisonDates.isSome then
    match Standard.comparedUnit? plan.grain with
    | none => ["cmp_date_1", "cmp_date_2"]
    | some _ => ["cmp_start_1", "cmp_start_2"]
        ++ if Standard.hasOwnEnds plan then ["cmp_end_1", "cmp_end_2"] else []
  else []

/-- The names that the dates of a plan are bound by. -/
def dateNames (plan : Plan) : List String := rangeNames plan.dateRange ++ comparisonNames plan

theorem keys_range (range : Option DateRange) :
    (Standard.rangeBindings range).map Prod.fst = rangeNames range := by
  match range with
  | none => rfl
  | some ⟨none, none⟩ | some ⟨none, some _⟩ | some ⟨some _, none⟩ | some ⟨some _, some _⟩ => rfl

theorem keys_pair (first second : String) (h : dates.length = 2) :
    (Standard.bindPair first second dates).map Prod.fst = [first, second] := by
  match dates, h with
  | [_, _], _ => rfl

theorem keys_comparison (h : plan.check = .ok ()) :
    (Standard.comparisonBindings plan).map Prod.fst = comparisonNames plan := by
  unfold Standard.comparisonBindings comparisonNames
  cases hd : plan.comparisonDates with
  | none => rfl
  | some dates =>
      obtain ⟨two, both⟩ := compared_of_check h hd
      cases Standard.comparedUnit? plan.grain with
      | none => exact keys_pair _ _ two
      | some unit =>
          simp only [Option.isSome_some, if_true, List.map_append, keys_pair _ _ two]
          split
          · next own =>
            have given : plan.comparisonEnds.isSome = true := by
              simp only [Standard.hasOwnEnds, Bool.and_eq_true] at own
              exact own.2
            obtain ⟨ends, he⟩ := Option.isSome_iff_exists.mp given
            rw [he, Option.getD_some, keys_pair _ _ (both ends he)]
          · rfl

theorem keys_bindings (h : plan.check = .ok ()) :
    (Standard.bindings plan).map Prod.fst = dateNames plan := by
  rw [Standard.bindings, List.map_append, keys_range, keys_comparison h]
  rfl

theorem rangeNames_same (h : Option.Rel DateRange.OpenAlike r s) :
    rangeNames r = rangeNames s := by
  cases h with
  | none => rfl
  | some alike => simp only [rangeNames, alike.start, alike.stop]

theorem hasOwnEnds_same (h : p.SameButValues q) :
    Standard.hasOwnEnds p = Standard.hasOwnEnds q := by
  rw [Standard.hasOwnEnds, Standard.hasOwnEnds, h.grain, h.comparisonEnds]

theorem dateNames_same (h : p.SameButValues q) : dateNames p = dateNames q := by
  have compared : comparisonNames p = comparisonNames q := by
    simp only [comparisonNames, h.comparisonDates, h.grain, hasOwnEnds_same h]
  rw [dateNames, dateNames, rangeNames_same h.dateRange, compared]

/-! ### Queries -/

theorem rangeFilters_same (h : Option.Rel DateRange.OpenAlike r s) (date : Expr) :
    Standard.rangeFilters date r = Standard.rangeFilters date s := by
  cases h with
  | none => rfl
  | some alike => simp only [Standard.rangeFilters, alike.start, alike.stop]

theorem comparisonFilters_same (h : p.SameButValues q) (date : Expr) :
    Standard.comparisonFilters p date = Standard.comparisonFilters q date := by
  simp only [Standard.comparisonFilters, h.comparisonDates, h.grain, hasOwnEnds_same h]

theorem effectiveLimit_same (h : p.SameButValues q) : p.effectiveLimit = q.effectiveLimit := by
  rw [Plan.effectiveLimit, Plan.effectiveLimit, h.limit]

theorem keys_same (h : p.SameButValues q) (date : Expr) :
    Standard.keys p date = Standard.keys q date := by
  rw [Standard.keys, Standard.keys, h.grain, h.dimensions]

theorem orderItems_same (h : p.SameButValues q) : Standard.orderItems p = Standard.orderItems q := by
  rw [Standard.orderItems, Standard.orderItems, h.grain, effectiveLimit_same h]

theorem standard_same (h : p.SameButValues q) (hp : p.check = .ok ()) (hq : q.check = .ok ())
    (metric : Metric) (schema : Schema) (tenant : String) :
    Standard.query p metric schema tenant = Standard.query q metric schema tenant := by
  unfold Standard.query
  simp only [checkCompared_of_check hp, checkCompared_of_check hq, h.dimensions, rangeFilters_same h.dateRange, comparisonFilters_same h, keys_same h,
    orderItems_same h, effectiveLimit_same h]

theorem trend_same (h : p.SameButValues q) (trend : ReportSql.Trend) (metric : Metric)
    (schema : Schema) (options : Options) :
    Trend.query p trend metric schema options = Trend.query q trend metric schema options := by
  unfold Trend.query Trend.parts
  simp only [h.dimensions, effectiveLimit_same h]

/-- Two plans without faults have one query, and bind values by the same names. -/
theorem query_same (h : p.SameButValues q) (hp : p.check = .ok ()) (hq : q.check = .ok ())
    (catalog : Catalog) (options : Options) :
    Lockstep (fun x y => x.1 = y.1 ∧ x.2.map Prod.fst = y.2.map Prod.fst)
      (query p catalog options) (query q catalog options) := by
  unfold query
  rw [hp, hq, h.baseTable, h.metric]
  refine .shared rfl fun _ _ => .shared rfl fun _ _ => .shared rfl fun metric _ => ?_
  refine .shared rfl fun base _ => ?_
  rw [show trend? p base = trend? q base by simp only [trend?, Plan.completeWeeksTrend, h.trend]]
  cases trend? q base with
  | some trend => exact .shared (trend_same h ..).symm fun query _ => .ok ⟨rfl, rfl⟩
  | none =>
      refine .shared (standard_same h hp hq ..).symm fun query _ => .ok ⟨rfl, ?_⟩
      rw [keys_bindings hp, keys_bindings hq, dateNames_same h]

/-! ### Parameters -/

theorem isSome_lookup {α β : Type} [BEq α] {l : List (α × β)} {a : α} :
    (l.lookup a).isSome = (l.map Prod.fst).any (a == ·) := by
  induction l with
  | nil => rfl
  | cons x l ih =>
      rw [List.lookup_cons, List.map_cons, List.any_cons, ← ih]
      cases a == x.1 <;> rfl

theorem compile_same (h : p.SameButValues q) (hp : p.check = .ok ()) (hq : q.check = .ok ())
    (catalog : Catalog) (options : Options) :
    Lockstep (fun a b => a.sql = b.sql ∧ a.params.map Prod.fst = b.params.map Prod.fst)
      (compile p catalog options) (compile q catalog options) := by
  refine .bind (query_same h hp hq catalog options) fun x y ⟨query, keys⟩ => .ok ?_
  rw [query]
  refine ⟨rfl, ?_⟩
  simp only [names_paramsOf, isSome_lookup, List.map_append, keys]
  rfl

/-- Sales by month since a day, compared in the months of two dates up to the days of two others. -/
def salesByMonth (tenant : String) (since first second firstEnd secondEnd : Date) : Plan :=
  { Plan.simple "gross_sales" "sales" tenant with
    dateRange := some ⟨some since, none⟩
    comparisonDates := some [first, second]
    comparisonEnds := some [firstEnd, secondEnd]
    grain := some .month }

end ReportSql.Report
