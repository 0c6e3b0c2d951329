import ReportSql.Gate.Basic
import ReportSql.Normalize.BannedColumn
import ReportSql.Normalize.CompletedState
import ReportSql.Normalize.ProductRevenue
import ReportSql.Normalize.RelativeWeek
import ReportSql.Tree.OfSyntax
import ReportSql.Tree.Render

/-!
Normalizing statements that passed the gate. Passes check a statement or rewrite it, one after the
other; the result is written as SQL again.
-/

namespace ReportSql.Normalize

open Catalog (CompletedState LookupFault)
open ReportSql.Tree (Query)

/-- The kinds of passes. -/
inductive PassKind where
  | scope
  | completedState
  | relativeWeek
  | bannedColumn
  | productRevenue
  deriving DecidableEq, Repr

def PassKind.name : PassKind → String
  | .scope => "scope"
  | .completedState => "completed_state"
  | .relativeWeek => "relative_week"
  | .bannedColumn => "banned_column"
  | .productRevenue => "product_revenue"

/-- The usual order. -/
def PassKind.all : List PassKind :=
  [.scope, .completedState, .relativeWeek, .bannedColumn, .productRevenue]

inductive Pass where
  /-- A statement has to mention the parameter of the tenant. -/
  | scope (param : String)
  | completedState (state : Option CompletedState)
  | relativeWeek (week : RelativeWeek)
  | bannedColumn (bans : List BannedColumn)
  | productRevenue (revenue : ProductRevenue)

def Pass.kind : Pass → PassKind
  | .scope _ => .scope
  | .completedState _ => .completedState
  | .relativeWeek _ => .relativeWeek
  | .bannedColumn _ => .bannedColumn
  | .productRevenue _ => .productRevenue

def Pass.name (p : Pass) : String := p.kind.name

/-- Builds a pass of some kind over a catalog. -/
def Pass.build (catalog : Catalog) (tenantParam : String) (rules : Rules) :
    PassKind → Except LookupFault Pass
  | .scope => return .scope tenantParam
  | .completedState => return .completedState catalog.schema.completed
  | .relativeWeek => return .relativeWeek (← RelativeWeek.build catalog.schema rules)
  | .bannedColumn => return .bannedColumn rules.bannedColumns
  | .productRevenue =>
    return .productRevenue (← ProductRevenue.build catalog rules.productRevenue)

def buildPasses (catalog : Catalog) (tenantParam : String) (rules : Rules)
    (kinds : List PassKind) : Except LookupFault (List Pass) :=
  kinds.mapM (Pass.build catalog tenantParam rules)

/-! ### Applying passes -/

/-- Why a statement cannot be normalized. -/
inductive Fault where
  | missingParam (param : String)
  | missingFilter (table filter : String)
  | unsupported (construct : String)
  deriving DecidableEq, Repr

def Fault.message : Fault → String
  | .missingParam param =>
    "SQL must reference the " ++ Sql.Placeholder.text param ++ " parameter for tenant scoping"
  | .missingFilter table filter => "SQL reading " ++ table ++ " must filter on " ++ filter
  | .unsupported construct => "cannot normalize: unsupported SQL construct: " ++ construct

def stateText (s : CompletedState) : String :=
  s.table ++ "." ++ s.column ++ " = '" ++ s.value ++ "'"

/-- What a statement is normalized for. -/
structure Context where
  question : String
  today : Date
  deriving DecidableEq, Repr

/-- Applies a pass, and tells whether it rewrote the statement. -/
def Pass.apply (context : Context) (q : Query) : Pass → Except Fault (Query × Bool)
  | .scope param => if q.references param then .ok (q, false) else .error (.missingParam param)
  | .completedState none => .ok (q, false)
  | .completedState (some state) =>
    if allKeepCompleted state q then .ok (q, false)
    else .error (.missingFilter state.table (stateText state))
  | .relativeWeek week => .ok (week.apply context.question context.today q)
  | .bannedColumn bans => .ok (applyBans bans q)
  | .productRevenue revenue => .ok (revenue.apply q)

/-- Applies passes in order; gives the names of those that rewrote the statement. -/
def applyPasses (context : Context) : List Pass → Query → Except Fault (Query × List String)
  | [], q => .ok (q, [])
  | p :: rest, q => do
    let (q, changed) ← p.apply context q
    let (q, applied) ← applyPasses context rest q
    return (q, if changed then p.name :: applied else applied)

/-- A statement as it is to be run. -/
structure Normalized where
  sql : String
  /-- The passes that rewrote it. -/
  applied : List String
  deriving DecidableEq, Repr

def normalize (passes : List Pass) (context : Context) (statement : Gate.Accepted) :
    Except Fault Normalized := do
  let q ← (Query.ofSyntax statement.query).mapError fun e => .unsupported e.construct
  let (q, applied) ← applyPasses context passes q
  return ⟨Sql.Placeholder.unmask q.sql, applied⟩

end ReportSql.Normalize
