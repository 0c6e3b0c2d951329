import ReportSql.Settings.Basic
import ReportSql.Toml.Reader

/-!
Settings in TOML. All that is left out has its default.
-/

namespace ReportSql

open Toml (Value)
open Normalize (BannedColumn ProductRevenueRule Rules)

/-! ### Reading -/

def Normalize.BannedColumn.ofToml? (v : Value) : Option BannedColumn := do
  let r ← v.record? ["table", "column", "replacement"]
  return {
    table := ← r.required "table" Value.string?
    column := ← r.required "column" Value.string?
    replacement := ← r.required "replacement" Value.string? }

def Normalize.ProductRevenueRule.ofToml? (v : Value) : Option ProductRevenueRule := do
  let r ← v.record? ["dimension_table", "name_column", "gross_metric", "line_metric"]
  let default := ProductRevenueRule.default
  return {
    dimensionTable := ← r.defaulted "dimension_table" Value.string? default.dimensionTable
    nameColumn := ← r.defaulted "name_column" Value.string? default.nameColumn
    grossMetric := ← r.defaulted "gross_metric" Value.string? default.grossMetric
    lineMetric := ← r.defaulted "line_metric" Value.string? default.lineMetric }

def Normalize.Rules.ofToml? (v : Value) : Option Rules := do
  let r ← v.record? ["relative_week_phrases", "relative_week_tables", "banned_columns",
    "product_revenue"]
  let default := Rules.default
  return {
    weekPhrases :=
      ← r.defaulted "relative_week_phrases" (Value.list? Value.string?) default.weekPhrases
    weekTables :=
      ← r.defaulted "relative_week_tables" (Value.list? Value.string?) default.weekTables
    bannedColumns :=
      ← r.defaulted "banned_columns" (Value.list? BannedColumn.ofToml?) default.bannedColumns
    productRevenue :=
      ← r.defaulted "product_revenue" ProductRevenueRule.ofToml? default.productRevenue }

def SafetySettings.ofToml? (v : Value) : Option SafetySettings := do
  let r ← v.record? ["allowed_schemas", "forbidden_functions", "restrict_tables"]
  let default := SafetySettings.default
  return {
    allowedSchemas :=
      ← r.defaulted "allowed_schemas" (Value.list? Value.string?) default.allowedSchemas
    forbiddenFunctions :=
      ← r.defaulted "forbidden_functions" (Value.list? Value.string?) default.forbiddenFunctions
    restrictTables := ← r.defaulted "restrict_tables" Value.bool? default.restrictTables }

def TrendSettings.ofToml? (v : Value) : Option TrendSettings := do
  let r ← v.record? ["recent_weeks", "prior_weeks", "limit"]
  let default := TrendSettings.default
  return {
    recentWeeks := ← r.defaulted "recent_weeks" (Value.natBelow? UInt32.size) default.recentWeeks
    priorWeeks := ← r.defaulted "prior_weeks" (Value.natBelow? UInt32.size) default.priorWeeks
    limit := ← r.defaulted "limit" (fun v => (v.natBelow? UInt64.size).map Nat.toUInt64)
      default.limit }

def tenantParamOfToml? (v : Value) : Option String := do
  let r ← v.record? ["param"]
  r.defaulted "param" Value.string? Settings.default.tenantParam

namespace Settings

def ofToml? (v : Value) : Option Settings := do
  let r ← v.record? ["catalog", "tenant", "trend", "safety", "normalizer"]
  return {
    catalog := ← r.optional "catalog" Value.string?
    tenantParam := ← r.defaulted "tenant" tenantParamOfToml? default.tenantParam
    trend := ← r.defaulted "trend" TrendSettings.ofToml? default.trend
    safety := ← r.defaulted "safety" SafetySettings.ofToml? default.safety
    rules := ← r.defaulted "normalizer" Rules.ofToml? default.rules }

/-- Reads the TOML text of settings. -/
def read (text : String) : Except Error Settings := do
  match Value.read? text >>= ofToml? with
  | none => .error .malformed
  | some s =>
    s.check
    return s

/-! ### Files -/

def ofFile (env : Environment) (path : String) : Except Error Settings :=
  match env.file path with
  | .missing => .error (.fileMissing path)
  | .unreadable => .error (.fileUnreadable path)
  | .content text => read text

/-- The variable that names the file of the settings. -/
def pathVariable : String := "QUERYGATE_CONFIG"

/-- The file that is looked for in the working directory. -/
def localPath : String := "querygate.toml"

/-- The file of a user, under the directory of their settings. -/
def userPath (directory : String) : String := directory ++ "/querygate/config.toml"

/-- Loads the settings that a variable names, or else those of the working directory, or else those
of the user, whose directory for settings is given if there is one. -/
def load (env : Environment) (userDirectory : Option String) : Except Error Settings :=
  let found (path : String) : Option String :=
    if env.file path = .missing then none else some path
  match env.value? pathVariable with
  | some path => ofFile env path
  | none =>
    match found localPath <|> userDirectory.bind fun d => found (userPath d) with
    | some path => ofFile env path
    | none => .ok default

end Settings

end ReportSql
