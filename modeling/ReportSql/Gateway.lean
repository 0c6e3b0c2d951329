import ReportSql.Catalog.Restaurant
import ReportSql.Catalog.Toml
import ReportSql.Normalize.Chain
import ReportSql.Report.Basic
import ReportSql.Settings.Basic

/-!
A gateway between the makers of questions and a database: it makes reports of plans, and lets SQL
from outside through once it is checked and normalized.
-/

namespace ReportSql

structure Gateway where
  catalog : Catalog
  options : Report.Options
  policy : Gate.Policy
  passes : List Normalize.Pass

namespace Gateway

/-- Why there is no catalog. -/
inductive CatalogError where
  | fileMissing (path : String)
  | fileUnreadable (path : String)
  | read (error : Catalog.ReadError)
  deriving DecidableEq, Repr

inductive Error where
  | settings (error : Settings.Error)
  | catalog (error : CatalogError)
  | rules (fault : Catalog.LookupFault)
  | report (fault : Report.Fault)
  | refused (refusal : Gate.Refusal)
  | normalize (fault : Normalize.Fault)
  deriving DecidableEq, Repr

def CatalogError.message : CatalogError → String
  | .fileMissing path => "catalog file not found: " ++ path
  | .fileUnreadable path => "failed to read catalog: " ++ path
  | .read .malformed => "failed to parse catalog"
  | .read (.fault fault) => fault.message

def Error.message : Error → String
  | .settings error => error.message
  | .catalog error => error.message
  | .rules fault => "normalizer rules reference the catalog incorrectly: " ++ fault.message
  | .report fault => fault.message
  | .refused refusal => "rejected SQL: " ++ refusal.message
  | .normalize fault => "rejected SQL: " ++ fault.message

/-- Builds a gateway around a catalog. -/
def ofCatalog (catalog : Catalog) (settings : Settings) : Except Error Gateway := do
  let passes ← (Normalize.buildPasses catalog settings.tenantParam settings.rules
    Normalize.PassKind.all).mapError .rules
  return {
    catalog
    options := settings.options
    policy := settings.safety.policy catalog.schema
    passes }

def loadCatalog (env : Environment) (path : String) : Except CatalogError Catalog :=
  match env.file path with
  | .missing => .error (.fileMissing path)
  | .unreadable => .error (.fileUnreadable path)
  | .content text => (Catalog.read text).mapError .read

/-- Builds a gateway around the catalog that the settings name, or the one for restaurants. -/
def ofSettings (env : Environment) (settings : Settings) : Except Error Gateway := do
  settings.check.mapError .settings
  let catalog ← match ← (settings.catalogPath env).mapError .settings with
    | some path => (loadCatalog env path).mapError .catalog
    | none => pure Catalog.restaurant
  ofCatalog catalog settings

def compile (g : Gateway) (plan : Plan) : Except Error Report :=
  (Report.compile plan g.catalog g.options).mapError .report

/-- A statement that was let through. -/
structure Checked where
  accepted : Gate.Accepted
  normalized : Normalize.Normalized

/-- Checks a text and normalizes it for a question that is asked on some day. -/
def check (g : Gateway) (context : Normalize.Context) (text : String) : Except Error Checked := do
  let accepted ← (Gate.check g.policy text).mapError .refused
  let normalized ← (Normalize.normalize g.passes context accepted).mapError .normalize
  return ⟨accepted, normalized⟩

end Gateway

end ReportSql
