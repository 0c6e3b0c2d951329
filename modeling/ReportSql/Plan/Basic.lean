import ReportSql.Calendar.Format
import ReportSql.Text.Blank

/-!
Plans. A plan says which metric of which relation a report shows, for which tenant and period,
and how it is broken down.
-/

namespace ReportSql

/-- The length of the periods that rows are put into. -/
inductive Grain where
  | day
  | week
  | month
  deriving DecidableEq, Repr

def Grain.unit : Grain → String
  | .day => "day"
  | .week => "week"
  | .month => "month"

/-- A range of days, both ends included. -/
structure DateRange where
  start : Option Date
  stop : Option Date
  deriving DecidableEq, Repr

/-- A column that the metric is broken down by. -/
structure Dimension where
  table : String
  column : String
  label : Option String
  deriving DecidableEq, Repr

/-- The name of a dimension in the output, its alias unless that is empty. -/
def Dimension.outputName (d : Dimension) : String :=
  match d.label with
  | some label => if label.isEmpty then d.table ++ "_" ++ d.column else label
  | none => d.table ++ "_" ++ d.column

/-- What the rows of a trend are ranked by. -/
inductive Ranking where
  | delta
  | percentChange
  deriving DecidableEq, Repr

/-- A comparison of recent weeks with the weeks before. -/
structure Trend where
  completeWeeks : Bool
  recentWeeks : Option Nat
  priorWeeks : Option Nat
  rankBy : Option Ranking
  deriving DecidableEq, Repr

structure Plan where
  metric : String
  baseTable : String
  tenant : String
  dateRange : Option DateRange
  /-- The first days of two periods to compare. -/
  comparisonDates : Option (List Date)
  /-- The last days of those periods. -/
  comparisonEnds : Option (List Date)
  grain : Option Grain
  dimensions : List Dimension
  limit : Option UInt64
  trend : Option Trend
  deriving DecidableEq, Repr

namespace Plan

/-- A plan of a metric over all time. -/
def simple (metric baseTable tenant : String) : Plan where
  metric
  baseTable
  tenant
  dateRange := none
  comparisonDates := none
  comparisonEnds := none
  grain := none
  dimensions := []
  limit := none
  trend := none

/-- The greatest number of rows; zero sets no limit. -/
def effectiveLimit (p : Plan) : Option UInt64 := p.limit.filter (· != 0)

/-- The trend of a plan that asks for complete weeks. -/
def completeWeeksTrend (p : Plan) : Option Trend := p.trend.filter Trend.completeWeeks

inductive ComparisonFault where
  | dateCount (dates : Nat)
  | endCount (ends dates : Nat)
  | endsWithoutDates
  /-- A report that is asked to compare months up to days of their own takes two such days. -/
  | notTwoEnds (ends : Nat)
  deriving DecidableEq, Repr

def ComparisonFault.reason : ComparisonFault → String
  | .dateCount dates => "expected exactly 2 comparison dates, got " ++ toString dates
  | .endCount ends dates =>
    toString ends ++ " comparison end dates for " ++ toString dates ++ " comparison dates"
  | .endsWithoutDates => "comparison end dates given without comparison dates"
  | .notTwoEnds ends => "expected exactly 2 comparison end dates, got " ++ toString ends

inductive Fault where
  | emptyTenant
  | dateRange (start stop : Date)
  | comparison (fault : ComparisonFault)
  deriving DecidableEq, Repr

def Fault.message : Fault → String
  | .emptyTenant => "plan has no tenant"
  | .dateRange start stop =>
    "date range starts after it ends: " ++ start.text ++ " > " ++ stop.text
  | .comparison fault => "invalid comparison spec: " ++ fault.reason

def checkTenant (p : Plan) : Except Fault Unit :=
  if (Text.trim p.tenant).isEmpty then .error .emptyTenant else .ok ()

def checkDateRange (p : Plan) : Except Fault Unit :=
  match p.dateRange with
  | some ⟨some start, some stop⟩ =>
    if start.le stop then .ok () else .error (.dateRange start stop)
  | _ => .ok ()

/-- Two dates are compared, and if there are ends there are as many. -/
def comparisonFault? (p : Plan) : Option ComparisonFault :=
  match p.comparisonDates, p.comparisonEnds with
  | some dates, ends =>
    if dates.length != 2 then some (.dateCount dates.length)
    else match ends with
      | some ends =>
        if ends.length != dates.length then some (.endCount ends.length dates.length) else none
      | none => none
  | none, some _ => some .endsWithoutDates
  | none, none => none

def checkComparison (p : Plan) : Except Fault Unit :=
  match p.comparisonFault? with
  | some fault => .error (.comparison fault)
  | none => .ok ()

/-- The first fault of a plan, if there is one. -/
def check (p : Plan) : Except Fault Unit := do
  p.checkTenant
  p.checkDateRange
  p.checkComparison

end Plan

end ReportSql
