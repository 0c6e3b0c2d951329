import ReportSql.Proofs.MadeReports
import ReportSql.Proofs.SqlValues

/-!
The days of a report on the usual path. The conditions on the date of a row, with the dates of the
plan bound to their parameters, hold just of the points in time whose day is in the range of the plan
and in one of the two periods that it compares.
-/
namespace ReportSql.Values

variable {s : Scope}

def Value.ofParam : ParamValue → Value
  | ParamValue.text written => .text written
  | ParamValue.date d => .date d

/-- Whether parameters have the values that they are bound to. -/
def Scope.Binds (s : Scope) (bindings : List (String × ParamValue)) : Prop :=
  ∀ name value, (name, value) ∈ bindings → s.param name = .ofParam value

theorem Scope.Binds.left {early late : List (String × ParamValue)}
    (h : s.Binds (early ++ late)) : s.Binds early :=
  fun name value own => h name value (List.mem_append_left _ own)

theorem Scope.Binds.right {early late : List (String × ParamValue)}
    (h : s.Binds (early ++ late)) : s.Binds late :=
  fun name value own => h name value (List.mem_append_right _ own)

end ReportSql.Values

namespace ReportSql.Report.Standard

open Catalog (Metric Schema)
open ReportSql.Tree (Expr Query filterCondition)
open Values

variable {plan : Plan} {metric : Metric} {schema : Schema} {tenantParam name first second : String}
  {q : Query} {s : Scope} {date : Expr} {t : Moment} {day a b c d : Date} {dates : List Date}
  {range : Option DateRange}

/-! ### The days that a plan asks for -/

/-- Whether a day is in a range of days, where an end that is absent sets no limit. -/
def InRange (range : Option DateRange) (day : Date) : Prop :=
  ∀ r ∈ range, (∀ start ∈ r.start, start.le day) ∧ ∀ stop ∈ r.stop, day.le stop

/-- Whether a day is in one of two compared periods: the days themselves, or the weeks or months that
start on them. Months that are given ends hold the days up to these only. -/
def InPeriods (grain : Option Grain) (a b : Date) (ends : Option (List Date)) (day : Date) : Prop :=
  match grain with
  | none | some .day => day = a ∨ day = b
  | some .week => day.weekStart = a ∨ day.weekStart = b
  | some .month => (day.monthStart = a ∨ day.monthStart = b) ∧
      ∀ last ∈ ends, ∃ c d, last = [c, d] ∧ ((a.le day ∧ day.le c) ∨ (b.le day ∧ day.le d))

/-- Whether a plan asks for a day. -/
def Covers (plan : Plan) (day : Date) : Prop :=
  InRange plan.dateRange day ∧
    ∀ dates ∈ plan.comparisonDates,
      ∃ a b, dates = [a, b] ∧ InPeriods plan.grain a b plan.comparisonEnds day

/-! ### Conditions on one parameter -/

theorem value_dateParam (h : s.param name = .date d) : s.value (dateParam name) = some (.date d) := by
  have unfolded : s.value (dateParam name) = toDate (s.param name) := rfl
  rw [unfolded, h]
  rfl

/-- The start of the day after the one that a parameter names. -/
theorem value_dayAfter (h : s.param name = .date d) :
    s.value (dayAfter name) = some (.moment ((Moment.startOf d).addDays 1)) := by
  have oneDay : s.value (.interval "1 day") = some (.interval 1) := rfl
  exact value_add (value_dateParam h) rfl oneDay

theorem decides_from (dated : s.value date = some (.moment t)) (h : s.param name = .date d) :
    s.Decides (date.ge (dateParam name)) (d.le t.day) :=
  (Scope.decides_ge dated rfl (value_dateParam h) rfl).congr Moment.startOf_le

/-- The last day counts in full. -/
theorem decides_upTo (dated : s.value date = some (.moment t)) (h : s.param name = .date d) :
    s.Decides (date.lt (dayAfter name)) (t.day.le d) :=
  (Scope.decides_lt dated rfl (value_dayAfter h) rfl).congr Moment.lt_end

theorem decides_between (dated : s.value date = some (.moment t)) (start : s.param first = .date a)
    (stop : s.param second = .date b) :
    s.Decides (between date first second) (a.le t.day ∧ t.day.le b) :=
  ((decides_from dated start).and (decides_upTo dated stop)).paren

/-! ### The range -/

theorem decideAll_range (dated : s.value date = some (.moment t))
    (bound : s.Binds (rangeBindings range)) :
    s.DecideAll (rangeFilters date range) (InRange range t.day) := by
  cases range with
  | none => exact Scope.decideAll_nil.congr (by simp [InRange])
  | some r =>
      obtain ⟨start, stop⟩ := r
      have lower : s.DecideAll (if start.isSome then [date.ge (dateParam "start_date")] else [])
          (∀ d ∈ start, d.le t.day) := by
        cases start with
        | none => exact Scope.decideAll_nil.congr (by simp)
        | some d =>
            have own : s.param "start_date" = .date d :=
              bound "start_date" (.date d) (by simp [rangeBindings])
            exact (decides_from dated own).all.congr (by simp)
      have upper : s.DecideAll (if stop.isSome then [date.lt (dayAfter "end_date")] else [])
          (∀ d ∈ stop, t.day.le d) := by
        cases stop with
        | none => exact Scope.decideAll_nil.congr (by simp)
        | some d =>
            have own : s.param "end_date" = .date d :=
              bound "end_date" (.date d) (by simp [rangeBindings])
            exact (decides_upTo dated own).all.congr (by simp)
      exact (lower.append upper).congr (by simp [InRange])

/-! ### Compared periods -/

theorem bound_pair (bound : s.Binds (bindPair first second [a, b])) :
    s.param first = .date a ∧ s.param second = .date b :=
  ⟨bound first (.date a) (by simp [bindPair]), bound second (.date b) (by simp [bindPair])⟩

/-- The day of a row is one of two. -/
theorem decides_days (dated : s.value date = some (.moment t)) (start : s.param first = .date a)
    (other : s.param second = .date b) :
    s.Decides ((Expr.callOf "DATE" [date]).isOneOf [dateParam first, dateParam second])
      (t.day = a ∨ t.day = b) :=
  (Scope.decides_isOneOf (value_date_call dated) rfl (value_dateParam start)
    (value_dateParam other)).congr (or_congr Moment.startOf_inj Moment.startOf_inj)

/-- The week or month of a row starts on one of two days. -/
theorem decides_periods {unit : String} (dated : s.value date = some (.moment t))
    (starts : truncate? unit t = some (.startOf day)) (start : s.param first = .date a)
    (other : s.param second = .date b) :
    s.Decides ((Expr.truncate unit date).isOneOf [dateParam first, dateParam second])
      (day = a ∨ day = b) :=
  (Scope.decides_isOneOf (value_truncate dated starts) rfl (value_dateParam start)
    (value_dateParam other)).congr (or_congr Moment.startOf_inj Moment.startOf_inj)

theorem decides_eitherSpan (dated : s.value date = some (.moment t))
    (starts : s.param "cmp_start_1" = .date a ∧ s.param "cmp_start_2" = .date b)
    (ends : s.param "cmp_end_1" = .date c ∧ s.param "cmp_end_2" = .date d) :
    s.Decides (eitherSpan date) ((a.le t.day ∧ t.day.le c) ∨ (b.le t.day ∧ t.day.le d)) :=
  ((decides_between dated starts.1 ends.1).or (decides_between dated starts.2 ends.2)).paren

/-- A report compares two periods, and gives two ends to months that end on days of their own. -/
theorem pairs_of_compared (compared : checkCompared plan = .ok ())
    (own : plan.comparisonDates = some dates) : ∃ a b, dates = [a, b] ∧
      (plan.grain = some .month → ∀ ends ∈ plan.comparisonEnds, ∃ c d, ends = [c, d]) := by
  simp only [checkCompared, own, bne_iff_ne, ne_eq] at compared
  by_cases two : dates.length = 2
  · obtain ⟨a, b, rfl⟩ := List.length_eq_two.mp two
    refine ⟨a, b, rfl, ?_⟩
    intro month ends given
    have twoEnds : ends.length = 2 := by
      by_contra other
      simp [hasOwnEnds, month, Option.mem_def.mp given, other] at compared
    exact List.length_eq_two.mp twoEnds
  · simp [two] at compared

theorem decides_comparison (own : plan.comparisonDates = some [a, b])
    (twoEnds : plan.grain = some .month → ∀ ends ∈ plan.comparisonEnds, ∃ c d, ends = [c, d])
    (dated : s.value date = some (.moment t)) (bound : s.Binds (comparisonBindings plan)) :
    s.Decides (comparisonFilter date plan.grain (hasOwnEnds plan))
      (InPeriods plan.grain a b plan.comparisonEnds t.day) := by
  simp only [comparisonBindings, own] at bound
  unfold hasOwnEnds at bound ⊢
  cases grain : plan.grain with
  | none =>
      rw [grain] at bound
      have days := bound_pair bound
      exact decides_days dated days.1 days.2
  | some g =>
      rw [grain] at bound
      cases g with
      | day =>
          have days := bound_pair bound
          exact decides_days dated days.1 days.2
      | week =>
          have starts := bound_pair bound.left
          exact decides_periods dated rfl starts.1 starts.2
      | month =>
          have starts := bound_pair bound.left
          have month : truncate? "month" t = some (.startOf t.day.monthStart) := rfl
          have whole := decides_periods dated month starts.1 starts.2
          cases given : plan.comparisonEnds with
          | none => exact whole.congr (by simp [InPeriods])
          | some ends =>
              obtain ⟨c, d, rfl⟩ := twoEnds grain ends given
              rw [given] at bound
              have ends := bound_pair bound.right
              exact (whole.and (decides_eitherSpan dated starts ends)).congr (by simp [InPeriods])

theorem decideAll_comparison (compared : checkCompared plan = .ok ())
    (dated : s.value date = some (.moment t)) (bound : s.Binds (comparisonBindings plan)) :
    s.DecideAll (comparisonFilters plan date) (∀ dates ∈ plan.comparisonDates,
      ∃ a b, dates = [a, b] ∧ InPeriods plan.grain a b plan.comparisonEnds t.day) := by
  cases own : plan.comparisonDates with
  | none =>
      have none : comparisonFilters plan date = [] := by simp [comparisonFilters, own]
      rw [none]
      exact Scope.decideAll_nil.congr (by simp)
  | some dates =>
      obtain ⟨a, b, rfl, twoEnds⟩ := pairs_of_compared compared own
      have one : comparisonFilters plan date =
          [comparisonFilter date plan.grain (hasOwnEnds plan)] := by
        simp [comparisonFilters, own]
      rw [one]
      exact (decides_comparison own twoEnds dated bound).all.congr (by simp)

/-! ### Reports -/

/-- The conditions that a report sets on the dates of rows hold of the days that the plan asks for,
and its rows are those of such days that pass its other conditions. -/
theorem report_covers_days (h : query plan metric schema tenantParam = .ok q) :
    ∃ m : Made plan metric schema tenantParam, q = m.query ∧
      ∀ (s : Scope) (t : Moment),
        s.column (some m.dateTable.name) m.dateColumn = .moment t → s.Binds (bindings plan) →
        s.DecideAll (rangeFilters m.date plan.dateRange ++ comparisonFilters plan m.date)
          (Covers plan t.day) ∧
        (s.Holds q.condition ↔ (∀ f ∈ m.rowFilters, s.IsTrue f) ∧ Covers plan t.day) := by
  obtain ⟨m, rfl, compared⟩ := query_made h
  refine ⟨m, rfl, ?_⟩
  intro s t own bound
  have dated : s.value m.date = some (.moment t) := congrArg some own
  have days : s.DecideAll (rangeFilters m.date plan.dateRange ++ comparisonFilters plan m.date)
      (Covers plan t.day) :=
    (decideAll_range dated bound.left).append (decideAll_comparison compared dated bound.right)
  have split : m.filters =
      m.rowFilters ++ (rangeFilters m.date plan.dateRange ++ comparisonFilters plan m.date) :=
    List.append_assoc _ _ _
  have condition : m.query.condition = filterCondition m.filters := rfl
  refine ⟨days, ?_⟩
  rw [condition, Scope.holds_filterCondition, split, List.forall_mem_append, days.2]

def grossSales : Metric :=
  Catalog.Restaurant.plainSum "gross_sales" "sales" (.colOf "sales" "total") "Total sales."

/-- The first half of March 2024 against the first half of February. -/
def halfMonths : Plan :=
  { Plan.simple "gross_sales" "sales" "Cafe" with
    comparisonDates := some [.ofCivil ⟨2024, 3, 1⟩, .ofCivil ⟨2024, 2, 1⟩]
    comparisonEnds := some [.ofCivil ⟨2024, 3, 15⟩, .ofCivil ⟨2024, 2, 15⟩]
    grain := some .month }

/-- A sale at some time, with the dates of a plan bound to their names. -/
def soldAt (plan : Plan) (t : Moment) : Scope where
  column table name :=
    if table = some "sales" ∧ name = "created_at" then .moment t else .null
  param name := (((bindings plan).lookup name).map Value.ofParam).getD .null
  quotient := (· / ·)
  other _ := none

/-- The last of the days counts up to the last microsecond before the next. -/
theorem halfMonths_cover_days :
    ∃ m : Made halfMonths grossSales Catalog.Restaurant.schema "restaurant",
      (soldAt halfMonths ⟨(Moment.startOf (.ofCivil ⟨2024, 3, 16⟩)).ticks - 1⟩).DecideAll
        (rangeFilters m.date none ++ comparisonFilters halfMonths m.date) True ∧
      (soldAt halfMonths (.startOf (.ofCivil ⟨2024, 3, 16⟩))).DecideAll
        (rangeFilters m.date none ++ comparisonFilters halfMonths m.date) False := by
  have runs : (query halfMonths grossSales Catalog.Restaurant.schema "restaurant").isOk = true := by
    decide +kernel
  obtain ⟨q, made⟩ := exists_of_isOk runs
  obtain ⟨m, -, covers⟩ := report_covers_days made
  have dated : ∀ t, (soldAt halfMonths t).column (some m.dateTable.name) m.dateColumn =
      .moment t := by
    obtain ⟨table, column⟩ := Prod.mk.inj (Option.some.inj (Except.ok.inj m.dated))
    intro t
    rw [← table, ← column]
    rfl
  have bound : ∀ t, (soldAt halfMonths t).Binds (bindings halfMonths) := by
    intro t name value own
    have each : ∀ b ∈ bindings halfMonths,
        (((bindings halfMonths).lookup b.1).map Value.ofParam).getD .null = .ofParam b.2 := by
      decide +kernel
    exact each (name, value) own
  have day : ∀ d, Covers halfMonths d ↔
      (d.monthStart = .ofCivil ⟨2024, 3, 1⟩ ∨ d.monthStart = .ofCivil ⟨2024, 2, 1⟩) ∧
        ((Date.le (.ofCivil ⟨2024, 3, 1⟩) d ∧ d.le (.ofCivil ⟨2024, 3, 15⟩)) ∨
          (Date.le (.ofCivil ⟨2024, 2, 1⟩) d ∧ d.le (.ofCivil ⟨2024, 2, 15⟩))) := by
    simp [Covers, InRange, InPeriods, halfMonths, Plan.simple]
  refine ⟨m, (covers _ _ (dated _) (bound _)).1.congr ?_,
    (covers _ _ (dated _) (bound _)).1.congr ?_⟩
  · rw [day]
    decide +kernel
  · rw [day]
    decide +kernel

end ReportSql.Report.Standard
