import ReportSql.Environment
import ReportSql.Gate.Policy
import ReportSql.Normalize.Rules
import ReportSql.Report.Trend
import ReportSql.Text.Blank

/-!
Settings: where the catalog is, which parameter holds the tenant, the defaults of trends, the
policy of the gate and the rules of the normalizer.
-/

namespace ReportSql

structure TrendSettings where
  recentWeeks : Nat
  priorWeeks : Nat
  limit : UInt64
  deriving DecidableEq, Repr

structure SafetySettings where
  allowedSchemas : List String
  forbiddenFunctions : List String
  /-- Whether only tables of the catalog may be read. -/
  restrictTables : Bool
  deriving DecidableEq, Repr

structure Settings where
  /-- The path of a catalog; it may name variables. -/
  catalog : Option String
  tenantParam : String
  trend : TrendSettings
  safety : SafetySettings
  rules : Normalize.Rules
  deriving DecidableEq, Repr

def TrendSettings.default : TrendSettings := ⟨2, 2, 5⟩

def SafetySettings.default : SafetySettings where
  allowedSchemas := Gate.Policy.default.allowedSchemas
  forbiddenFunctions := Gate.effectfulFunctions
  restrictTables := false

def SafetySettings.policy (s : SafetySettings) (schema : Catalog.Schema) : Gate.Policy :=
  let policy :=
    (Gate.Policy.default.allowSchemas s.allowedSchemas).forbidFunctions s.forbiddenFunctions
  if s.restrictTables then policy.restrictTo schema else policy

namespace Settings

open Normalize (BannedColumn)

def default : Settings where
  catalog := none
  tenantParam := "restaurant"
  trend := .default
  safety := .default
  rules := .default

def options (s : Settings) : Report.Options where
  tenantParam := s.tenantParam
  recentWeeks := s.trend.recentWeeks
  priorWeeks := s.trend.priorWeeks
  limit := s.trend.limit

/-- Settings that cannot be worked with. -/
inductive Fault where
  | emptyTenantParam
  | noWeeks
  | noLimit
  | incompleteBan (ban : BannedColumn)
  | circularBan (ban : BannedColumn)
  deriving DecidableEq, Repr

def Fault.message : Fault → String
  | .emptyTenantParam => "tenant.param must not be empty"
  | .noWeeks => "trend week counts must be positive"
  | .noLimit => "trend.limit must be positive"
  | .incompleteBan b => "banned column entry " ++ b.table ++ "." ++ b.column ++ " is incomplete"
  | .circularBan b => "banned column " ++ b.table ++ "." ++ b.column ++ " replaces itself"

def isVacant (s : String) : Bool := (Text.trim s).isEmpty

def banFault? (b : BannedColumn) : Option Fault :=
  if isVacant b.table || isVacant b.column || isVacant b.replacement then some (.incompleteBan b)
  else if Text.sameIgnoringAsciiCase b.column b.replacement then some (.circularBan b)
  else none

def fault? (s : Settings) : Option Fault :=
  if isVacant s.tenantParam then some .emptyTenantParam
  else if s.trend.recentWeeks == 0 || s.trend.priorWeeks == 0 then some .noWeeks
  else if s.trend.limit == 0 then some .noLimit
  else s.rules.bannedColumns.findSome? banFault?

/-- Why settings cannot be had. -/
inductive Error where
  | fileMissing (path : String)
  | fileUnreadable (path : String)
  /-- The text describes no settings. -/
  | malformed
  | missingVariable (name : String)
  | invalid (fault : Fault)
  deriving DecidableEq, Repr

def Error.message : Error → String
  | .fileMissing path => "Config file not found: " ++ path
  | .fileUnreadable path => "Failed to read config file: " ++ path
  | .malformed => "Failed to parse config file"
  | .missingVariable name => "Missing environment variable: " ++ name
  | .invalid fault => "Invalid configuration: " ++ fault.message

def check (s : Settings) : Except Error Unit :=
  match s.fault? with
  | some fault => .error (.invalid fault)
  | none => .ok ()

/-- The path of the catalog with its variables expanded. -/
def catalogPath (s : Settings) (env : Environment) : Except Error (Option String) :=
  match s.catalog with
  | some path => ((env.expand path).mapError .missingVariable).map some
  | none => .ok none

end Settings

end ReportSql
