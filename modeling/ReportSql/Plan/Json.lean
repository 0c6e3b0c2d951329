import ReportSql.Json.Printer
import ReportSql.Json.Reader
import ReportSql.Json.Record
import ReportSql.Plan.Basic

/-!
Plans in JSON. What a plan need not say may be missing; unknown members are passed over.
-/

namespace ReportSql

open Json (Value nullableField)

/-! ### Reading -/

def Date.ofJson? (v : Value) : Option Date := v.string? >>= Date.readLenient?

/-- A name; an object with the name as its only key and null below says the same. -/
def nameOfJson? (v : Value) : Option String :=
  match v with
  | .text name => some name
  | .object [⟨some name, .null⟩] => some name
  | _ => none

/-- A grain, or the name of no grain. -/
def Grain.ofJson? (v : Value) : Option (Option Grain) := do
  match ← nameOfJson? v with
  | "none" => some none
  | "day" => some (some .day)
  | "week" => some (some .week)
  | "month" => some (some .month)
  | _ => none

def Ranking.ofJson? (v : Value) : Option Ranking := do
  match ← nameOfJson? v with
  | "delta" => some .delta
  | "percent_change" | "pct_change" => some .percentChange
  | _ => none

def boundedNat? (bound : Nat) (v : Value) : Option Nat := v.nat?.filter (· < bound)

def DateRange.ofJson? (v : Value) : Option DateRange := do
  let r ← v.record? ["start", "end"]
  return {
    start := ← nullableField r "start" Date.ofJson?
    stop := ← nullableField r "end" Date.ofJson? }

def Dimension.ofJson? (v : Value) : Option Dimension := do
  let r ← v.record? ["table", "column", "alias"]
  return {
    table := ← r.required "table" Value.string?
    column := ← r.required "column" Value.string?
    label := ← nullableField r "alias" Value.string? }

def Trend.ofJson? (v : Value) : Option Trend := do
  let r ← v.record? ["complete_weeks", "recent_weeks", "prior_weeks", "rank_by"]
  return {
    completeWeeks := ← r.defaulted "complete_weeks" Value.bool? false
    recentWeeks := ← nullableField r "recent_weeks" (boundedNat? UInt32.size)
    priorWeeks := ← nullableField r "prior_weeks" (boundedNat? UInt32.size)
    rankBy := ← nullableField r "rank_by" Ranking.ofJson? }

namespace Plan

def fieldNames : List String :=
  ["metric", "base_table", "restaurant", "date_range", "comparison_dates", "comparison_ends",
    "time_grain", "dimensions", "limit", "trend"]

def ofJson? (v : Value) : Option Plan := do
  let r ← v.record? fieldNames
  return {
    metric := ← r.required "metric" Value.string?
    baseTable := ← r.required "base_table" Value.string?
    tenant := ← r.required "restaurant" Value.string?
    dateRange := ← nullableField r "date_range" DateRange.ofJson?
    comparisonDates := ← nullableField r "comparison_dates" (Value.list? Date.ofJson?)
    comparisonEnds := ← nullableField r "comparison_ends" (Value.list? Date.ofJson?)
    grain := ← r.defaulted "time_grain" Grain.ofJson? none
    dimensions := ← r.defaulted "dimensions" (Value.list? Dimension.ofJson?) []
    limit := (← nullableField r "limit" (boundedNat? UInt64.size)).map Nat.toUInt64
    trend := ← nullableField r "trend" Trend.ofJson? }

/-- Reads the JSON text of a plan. -/
def read? (text : String) : Option Plan := Value.read? text >>= ofJson?

end Plan

/-! ### Writing -/

def optionalJson {α : Type} (write : α → Value) (a : Option α) : Value :=
  Value.ofOption (a.map write)

def Date.toJson (d : Date) : Value := .text d.text

def DateRange.toJson (r : DateRange) : Value :=
  .record [("start", optionalJson Date.toJson r.start), ("end", optionalJson Date.toJson r.stop)]

def Dimension.toJson (d : Dimension) : Value :=
  .record [
    ("table", .text d.table),
    ("column", .text d.column),
    ("alias", optionalJson .text d.label)]

def Grain.toJson (g : Option Grain) : Value := .text ((g.map Grain.unit).getD "none")

def Ranking.toJson : Ranking → Value
  | .delta => .text "delta"
  | .percentChange => .text "percent_change"

def Trend.toJson (t : Trend) : Value :=
  .record [
    ("complete_weeks", .boolean t.completeWeeks),
    ("recent_weeks", optionalJson Value.ofNat t.recentWeeks),
    ("prior_weeks", optionalJson Value.ofNat t.priorWeeks),
    ("rank_by", optionalJson Ranking.toJson t.rankBy)]

def Plan.toJson (p : Plan) : Value :=
  .record [
    ("metric", .text p.metric),
    ("base_table", .text p.baseTable),
    ("restaurant", .text p.tenant),
    ("date_range", optionalJson DateRange.toJson p.dateRange),
    ("comparison_dates", optionalJson (fun ds => .array (ds.map Date.toJson)) p.comparisonDates),
    ("comparison_ends", optionalJson (fun ds => .array (ds.map Date.toJson)) p.comparisonEnds),
    ("time_grain", Grain.toJson p.grain),
    ("dimensions", .array (p.dimensions.map Dimension.toJson)),
    ("limit", optionalJson (fun n => Value.ofNat n.toNat) p.limit),
    ("trend", optionalJson Trend.toJson p.trend)]

end ReportSql
