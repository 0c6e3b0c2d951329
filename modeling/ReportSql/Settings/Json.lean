import ReportSql.Json.Value
import ReportSql.Settings.Basic

/-!
Settings in JSON.
-/

namespace ReportSql

open Json (Value)
open Normalize (BannedColumn ProductRevenueRule Rules)

def Normalize.BannedColumn.toJson (b : BannedColumn) : Value :=
  .record [
    ("table", .text b.table),
    ("column", .text b.column),
    ("replacement", .text b.replacement)]

def Normalize.ProductRevenueRule.toJson (r : ProductRevenueRule) : Value :=
  .record [
    ("dimension_table", .text r.dimensionTable),
    ("name_column", .text r.nameColumn),
    ("gross_metric", .text r.grossMetric),
    ("line_metric", .text r.lineMetric)]

def Normalize.Rules.toJson (r : Rules) : Value :=
  .record [
    ("relative_week_phrases", .texts r.weekPhrases),
    ("relative_week_tables", .texts r.weekTables),
    ("banned_columns", .array (r.bannedColumns.map BannedColumn.toJson)),
    ("product_revenue", r.productRevenue.toJson)]

def SafetySettings.toJson (s : SafetySettings) : Value :=
  .record [
    ("allowed_schemas", .texts s.allowedSchemas),
    ("forbidden_functions", .texts s.forbiddenFunctions),
    ("restrict_tables", .boolean s.restrictTables)]

def TrendSettings.toJson (s : TrendSettings) : Value :=
  .record [
    ("recent_weeks", .ofNat s.recentWeeks),
    ("prior_weeks", .ofNat s.priorWeeks),
    ("limit", .ofNat s.limit.toNat)]

def Settings.toJson (s : Settings) : Value :=
  .record [
    ("catalog", .ofOption (s.catalog.map .text)),
    ("tenant", .record [("param", .text s.tenantParam)]),
    ("trend", s.trend.toJson),
    ("safety", s.safety.toJson),
    ("normalizer", s.rules.toJson)]

end ReportSql
